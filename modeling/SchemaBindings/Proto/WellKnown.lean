import SchemaBindings.Proto.Pool
import SchemaBindings.Proto.WellKnown.Descriptor

/-!
The schema files that every source can import without their being there.
-/

namespace SchemaBindings.Proto.WellKnown

def any : FileSource :=
  standard [] [message "Any" [plain "type_url" 1 (scalar .string), plain "value" 2 (scalar .bytes)]]

def api : FileSource :=
  standard ["google/protobuf/source_context.proto", "google/protobuf/type.proto"]
    [message "Api"
      [plain "name" 1 (scalar .string), repeated "methods" 2 (ref "Method"),
       repeated "options" 3 (ref "Option"), plain "version" 4 (scalar .string),
       plain "source_context" 5 (ref "SourceContext"), repeated "mixins" 6 (ref "Mixin"),
       plain "syntax" 7 (ref "Syntax")],
     message "Method"
      [plain "name" 1 (scalar .string), plain "request_type_url" 2 (scalar .string),
       plain "request_streaming" 3 (scalar .bool), plain "response_type_url" 4 (scalar .string),
       plain "response_streaming" 5 (scalar .bool), repeated "options" 6 (ref "Option"),
       plain "syntax" 7 (ref "Syntax")],
     message "Mixin" [plain "name" 1 (scalar .string), plain "root" 2 (scalar .string)]]

/-- The requests and responses of programs that take part in compiling schema files. -/
def plugin : FileSource where
  package := some "google.protobuf.compiler"
  imports := imports ["google/protobuf/descriptor.proto"]
  members :=
    [message "Version"
      [int32 "major" 1, int32 "minor" 2, int32 "patch" 3, string "suffix" 4],
     message "CodeGeneratorRequest"
      [repeated "file_to_generate" 1 (scalar .string), string "parameter" 2,
       repeated "proto_file" 15 (ref "google.protobuf.FileDescriptorProto"),
       repeated "source_file_descriptors" 17 (ref "google.protobuf.FileDescriptorProto"),
       optional "compiler_version" 3 (ref "Version")],
     message "CodeGeneratorResponse"
      [string "error" 1, optional "supported_features" 2 (scalar .uint64),
       enumFrom "Feature" 0
        ["FEATURE_NONE", "FEATURE_PROTO3_OPTIONAL", "FEATURE_SUPPORTS_EDITIONS"],
       message "File"
        [string "name" 1, string "insertion_point" 2, string "content" 15,
         optional "generated_code_info" 16 (ref "google.protobuf.GeneratedCodeInfo")],
       repeated "file" 15 (ref "File")]]

/-- A span or a point of time. -/
def time (name : String) : FileSource :=
  standard [] [message name [plain "seconds" 1 (scalar .int64), plain "nanos" 2 (scalar .int32)]]

def struct : FileSource :=
  standard []
    [message "Struct" [.map ⟨none, none, "fields", 1, []⟩ .string (ref "Value")],
     message "Value"
      [.oneof "kind"
        [plain "null_value" 1 (ref "NullValue"), plain "number_value" 2 (scalar .double),
         plain "string_value" 3 (scalar .string), plain "bool_value" 4 (scalar .bool),
         plain "struct_value" 5 (ref "Struct"), plain "list_value" 6 (ref "ListValue")] []],
     enum "NullValue" [("NULL_VALUE", 0)],
     message "ListValue" [repeated "values" 1 (ref "Value")]]

def type : FileSource :=
  standard ["google/protobuf/any.proto", "google/protobuf/source_context.proto"]
    [message "Type"
      [plain "name" 1 (scalar .string), repeated "fields" 2 (ref "Field"),
       repeated "oneofs" 3 (scalar .string), repeated "options" 4 (ref "Option"),
       plain "source_context" 5 (ref "SourceContext"), plain "syntax" 6 (ref "Syntax"),
       plain "edition" 7 (scalar .string)],
     message "Field"
      [enumFrom "Kind" 0
        ["TYPE_UNKNOWN", "TYPE_DOUBLE", "TYPE_FLOAT", "TYPE_INT64", "TYPE_UINT64", "TYPE_INT32",
         "TYPE_FIXED64", "TYPE_FIXED32", "TYPE_BOOL", "TYPE_STRING", "TYPE_GROUP", "TYPE_MESSAGE",
         "TYPE_BYTES", "TYPE_UINT32", "TYPE_ENUM", "TYPE_SFIXED32", "TYPE_SFIXED64", "TYPE_SINT32",
         "TYPE_SINT64"],
       enumFrom "Cardinality" 0
        ["CARDINALITY_UNKNOWN", "CARDINALITY_OPTIONAL", "CARDINALITY_REQUIRED",
         "CARDINALITY_REPEATED"],
       plain "kind" 1 (ref "Kind"), plain "cardinality" 2 (ref "Cardinality"),
       plain "number" 3 (scalar .int32), plain "name" 4 (scalar .string),
       plain "type_url" 6 (scalar .string), plain "oneof_index" 7 (scalar .int32),
       plain "packed" 8 (scalar .bool), repeated "options" 9 (ref "Option"),
       plain "json_name" 10 (scalar .string), plain "default_value" 11 (scalar .string)],
     message "Enum"
      [plain "name" 1 (scalar .string), repeated "enumvalue" 2 (ref "EnumValue"),
       repeated "options" 3 (ref "Option"), plain "source_context" 4 (ref "SourceContext"),
       plain "syntax" 5 (ref "Syntax"), plain "edition" 6 (scalar .string)],
     message "EnumValue"
      [plain "name" 1 (scalar .string), plain "number" 2 (scalar .int32),
       repeated "options" 3 (ref "Option")],
     message "Option" [plain "name" 1 (scalar .string), plain "value" 2 (ref "Any")],
     enumFrom "Syntax" 0 ["SYNTAX_PROTO2", "SYNTAX_PROTO3", "SYNTAX_EDITIONS"]]

/-- A message that holds a single value. -/
def wrapper (name : String) (kind : Descriptor.Kind) : Member :=
  message name [plain "value" 1 (scalar kind)]

def wrappers : FileSource :=
  standard []
    [wrapper "DoubleValue" .double, wrapper "FloatValue" .float, wrapper "Int64Value" .int64,
     wrapper "UInt64Value" .uint64, wrapper "Int32Value" .int32, wrapper "UInt32Value" .uint32,
     wrapper "BoolValue" .bool, wrapper "StringValue" .string, wrapper "BytesValue" .bytes]

/-- The file with a path. -/
def source? : String → Option FileSource
  | "google/protobuf/any.proto" => some any
  | "google/protobuf/api.proto" => some api
  | "google/protobuf/compiler/plugin.proto" => some plugin
  | "google/protobuf/descriptor.proto" => some descriptor
  | "google/protobuf/duration.proto" => some (time "Duration")
  | "google/protobuf/empty.proto" => some (standard [] [message "Empty" []])
  | "google/protobuf/field_mask.proto" =>
    some (standard [] [message "FieldMask" [repeated "paths" 1 (scalar .string)]])
  | "google/protobuf/source_context.proto" =>
    some (standard [] [message "SourceContext" [plain "file_name" 1 (scalar .string)]])
  | "google/protobuf/struct.proto" => some struct
  | "google/protobuf/timestamp.proto" => some (time "Timestamp")
  | "google/protobuf/type.proto" => some type
  | "google/protobuf/wrappers.proto" => some wrappers
  | _ => none

/-- The compiled file with the messages that hold options. -/
def optionPool : Pool :=
  (Pool.push? [] "google/protobuf/descriptor.proto" descriptor).getD []

end SchemaBindings.Proto.WellKnown
