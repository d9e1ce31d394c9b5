import SchemaBindings.Proto.WellKnown.Declare

/-!
The schema file that describes schema files, with the messages that hold options.
-/

namespace SchemaBindings.Proto.WellKnown

/-- The numbers that the messages of options leave to extensions. -/
def optionExtensions : Member := extensions [(1000, 536870911)]

/-- The settings of a declaration as they were written. -/
def uninterpreted : Member := repeated "uninterpreted_option" 999 (ref "UninterpretedOption")

def features (number : Nat) : Member := optional "features" number (ref "FeatureSet")

def string (name : String) (number : Nat) : Member := optional name number (scalar .string)

def bool (name : String) (number : Nat) : Member := optional name number (scalar .bool)

def int32 (name : String) (number : Nat) : Member := optional name number (scalar .int32)

/-- A message of options. -/
def options (name : String) (members : List Member) : Member :=
  message name (members ++ [uninterpreted, optionExtensions])

def editions : Member :=
  enum "Edition" [("EDITION_UNKNOWN", 0), ("EDITION_PROTO2", 998), ("EDITION_PROTO3", 999),
    ("EDITION_2023", 1000), ("EDITION_1_TEST_ONLY", 1), ("EDITION_2_TEST_ONLY", 2),
    ("EDITION_99997_TEST_ONLY", 99997), ("EDITION_99998_TEST_ONLY", 99998),
    ("EDITION_99999_TEST_ONLY", 99999)]

def fileDescriptors : List Member :=
  [message "FileDescriptorSet" [repeated "file" 1 (ref "FileDescriptorProto")],
   message "FileDescriptorProto"
    [string "name" 1, string "package" 2, repeated "dependency" 3 (scalar .string),
     repeated "public_dependency" 10 (scalar .int32), repeated "weak_dependency" 11 (scalar .int32),
     repeated "message_type" 4 (ref "DescriptorProto"),
     repeated "enum_type" 5 (ref "EnumDescriptorProto"),
     repeated "service" 6 (ref "ServiceDescriptorProto"),
     repeated "extension" 7 (ref "FieldDescriptorProto"), optional "options" 8 (ref "FileOptions"),
     optional "source_code_info" 9 (ref "SourceCodeInfo"), string "syntax" 12,
     optional "edition" 14 (ref "Edition")]]

def messageDescriptors : List Member :=
  [message "DescriptorProto"
    [string "name" 1, repeated "field" 2 (ref "FieldDescriptorProto"),
     repeated "extension" 6 (ref "FieldDescriptorProto"),
     repeated "nested_type" 3 (ref "DescriptorProto"),
     repeated "enum_type" 4 (ref "EnumDescriptorProto"),
     message "ExtensionRange"
      [int32 "start" 1, int32 "end" 2, optional "options" 3 (ref "ExtensionRangeOptions")],
     repeated "extension_range" 5 (ref "ExtensionRange"),
     repeated "oneof_decl" 8 (ref "OneofDescriptorProto"),
     optional "options" 7 (ref "MessageOptions"),
     message "ReservedRange" [int32 "start" 1, int32 "end" 2],
     repeated "reserved_range" 9 (ref "ReservedRange"),
     repeated "reserved_name" 10 (scalar .string)],
   message "ExtensionRangeOptions"
    [uninterpreted,
     message "Declaration"
      [int32 "number" 1, string "full_name" 2, string "type" 3, bool "reserved" 5,
       bool "repeated" 6],
     repeated "declaration" 2 (ref "Declaration"), features 50,
     enumFrom "VerificationState" 0 ["DECLARATION", "UNVERIFIED"],
     optional "verification" 3 (ref "VerificationState"), optionExtensions],
   message "FieldDescriptorProto"
    [enumFrom "Type" 1
      ["TYPE_DOUBLE", "TYPE_FLOAT", "TYPE_INT64", "TYPE_UINT64", "TYPE_INT32", "TYPE_FIXED64",
       "TYPE_FIXED32", "TYPE_BOOL", "TYPE_STRING", "TYPE_GROUP", "TYPE_MESSAGE", "TYPE_BYTES",
       "TYPE_UINT32", "TYPE_ENUM", "TYPE_SFIXED32", "TYPE_SFIXED64", "TYPE_SINT32", "TYPE_SINT64"],
     enum "Label" [("LABEL_OPTIONAL", 1), ("LABEL_REPEATED", 3), ("LABEL_REQUIRED", 2)],
     string "name" 1, int32 "number" 3, optional "label" 4 (ref "Label"),
     optional "type" 5 (ref "Type"), string "type_name" 6, string "extendee" 2,
     string "default_value" 7, int32 "oneof_index" 9, string "json_name" 10,
     optional "options" 8 (ref "FieldOptions"), bool "proto3_optional" 17],
   message "OneofDescriptorProto" [string "name" 1, optional "options" 2 (ref "OneofOptions")],
   message "EnumDescriptorProto"
    [string "name" 1, repeated "value" 2 (ref "EnumValueDescriptorProto"),
     optional "options" 3 (ref "EnumOptions"),
     message "EnumReservedRange" [int32 "start" 1, int32 "end" 2],
     repeated "reserved_range" 4 (ref "EnumReservedRange"),
     repeated "reserved_name" 5 (scalar .string)],
   message "EnumValueDescriptorProto"
    [string "name" 1, int32 "number" 2, optional "options" 3 (ref "EnumValueOptions")],
   message "ServiceDescriptorProto"
    [string "name" 1, repeated "method" 2 (ref "MethodDescriptorProto"),
     optional "options" 3 (ref "ServiceOptions")],
   message "MethodDescriptorProto"
    [string "name" 1, string "input_type" 2, string "output_type" 3,
     optional "options" 4 (ref "MethodOptions"), bool "client_streaming" 5,
     bool "server_streaming" 6]]

def fieldOptions : Member :=
  options "FieldOptions"
    [optional "ctype" 1 (ref "CType"), enumFrom "CType" 0 ["STRING", "CORD", "STRING_PIECE"],
     bool "packed" 2, optional "jstype" 6 (ref "JSType"),
     enumFrom "JSType" 0 ["JS_NORMAL", "JS_STRING", "JS_NUMBER"], bool "lazy" 5,
     bool "unverified_lazy" 15, bool "deprecated" 3, bool "weak" 10, bool "debug_redact" 16,
     enumFrom "OptionRetention" 0 ["RETENTION_UNKNOWN", "RETENTION_RUNTIME", "RETENTION_SOURCE"],
     optional "retention" 17 (ref "OptionRetention"),
     enumFrom "OptionTargetType" 0
      ["TARGET_TYPE_UNKNOWN", "TARGET_TYPE_FILE", "TARGET_TYPE_EXTENSION_RANGE",
       "TARGET_TYPE_MESSAGE", "TARGET_TYPE_FIELD", "TARGET_TYPE_ONEOF", "TARGET_TYPE_ENUM",
       "TARGET_TYPE_ENUM_ENTRY", "TARGET_TYPE_SERVICE", "TARGET_TYPE_METHOD"],
     repeated "targets" 19 (ref "OptionTargetType"),
     message "EditionDefault" [optional "edition" 3 (ref "Edition"), string "value" 2],
     repeated "edition_defaults" 20 (ref "EditionDefault"), features 21]

def optionMessages : List Member :=
  [options "FileOptions"
    [string "java_package" 1, string "java_outer_classname" 8, bool "java_multiple_files" 10,
     bool "java_generate_equals_and_hash" 20, bool "java_string_check_utf8" 27,
     enumFrom "OptimizeMode" 1 ["SPEED", "CODE_SIZE", "LITE_RUNTIME"],
     optional "optimize_for" 9 (ref "OptimizeMode"), string "go_package" 11,
     bool "cc_generic_services" 16, bool "java_generic_services" 17, bool "py_generic_services" 18,
     bool "php_generic_services" 42, bool "deprecated" 23, bool "cc_enable_arenas" 31,
     string "objc_class_prefix" 36, string "csharp_namespace" 37, string "swift_prefix" 39,
     string "php_class_prefix" 40, string "php_namespace" 41, string "php_metadata_namespace" 44,
     string "ruby_package" 45, features 50],
   options "MessageOptions"
    [bool "message_set_wire_format" 1, bool "no_standard_descriptor_accessor" 2,
     bool "deprecated" 3, bool "map_entry" 7, bool "deprecated_legacy_json_field_conflicts" 11,
     features 12],
   fieldOptions,
   options "OneofOptions" [features 1],
   options "EnumOptions"
    [bool "allow_alias" 2, bool "deprecated" 3, bool "deprecated_legacy_json_field_conflicts" 6,
     features 7],
   options "EnumValueOptions" [bool "deprecated" 1, features 2, bool "debug_redact" 3],
   options "ServiceOptions" [features 34, bool "deprecated" 33],
   options "MethodOptions"
    [bool "deprecated" 33,
     enumFrom "IdempotencyLevel" 0 ["IDEMPOTENCY_UNKNOWN", "NO_SIDE_EFFECTS", "IDEMPOTENT"],
     optional "idempotency_level" 34 (ref "IdempotencyLevel"), features 35],
   message "UninterpretedOption"
    [message "NamePart" [required "name_part" 1 (scalar .string),
      required "is_extension" 2 (scalar .bool)],
     repeated "name" 2 (ref "NamePart"), string "identifier_value" 3,
     optional "positive_int_value" 4 (scalar .uint64),
     optional "negative_int_value" 5 (scalar .int64), optional "double_value" 6 (scalar .double),
     optional "string_value" 7 (scalar .bytes), string "aggregate_value" 8]]

def featureMessages : List Member :=
  [message "FeatureSet"
    [enumFrom "FieldPresence" 0
      ["FIELD_PRESENCE_UNKNOWN", "EXPLICIT", "IMPLICIT", "LEGACY_REQUIRED"],
     optional "field_presence" 1 (ref "FieldPresence"),
     enumFrom "EnumType" 0 ["ENUM_TYPE_UNKNOWN", "OPEN", "CLOSED"],
     optional "enum_type" 2 (ref "EnumType"),
     enumFrom "RepeatedFieldEncoding" 0
      ["REPEATED_FIELD_ENCODING_UNKNOWN", "PACKED", "EXPANDED"],
     optional "repeated_field_encoding" 3 (ref "RepeatedFieldEncoding"),
     enumFrom "Utf8Validation" 0 ["UTF8_VALIDATION_UNKNOWN", "NONE", "VERIFY"],
     optional "utf8_validation" 4 (ref "Utf8Validation"),
     enumFrom "MessageEncoding" 0 ["MESSAGE_ENCODING_UNKNOWN", "LENGTH_PREFIXED", "DELIMITED"],
     optional "message_encoding" 5 (ref "MessageEncoding"),
     enumFrom "JsonFormat" 0 ["JSON_FORMAT_UNKNOWN", "ALLOW", "LEGACY_BEST_EFFORT"],
     optional "json_format" 6 (ref "JsonFormat"),
     extensions [(1000, 1000), (1001, 1001), (9995, 9999)]],
   message "FeatureSetDefaults"
    [message "FeatureSetEditionDefault"
      [optional "edition" 3 (ref "Edition"), optional "features" 2 (ref "FeatureSet")],
     repeated "defaults" 1 (ref "FeatureSetEditionDefault"),
     optional "minimum_edition" 4 (ref "Edition"), optional "maximum_edition" 5 (ref "Edition")]]

def infoMessages : List Member :=
  [message "SourceCodeInfo"
    [repeated "location" 1 (ref "Location"),
     message "Location"
      [repeated "path" 1 (scalar .int32), repeated "span" 2 (scalar .int32),
       string "leading_comments" 3, string "trailing_comments" 4,
       repeated "leading_detached_comments" 6 (scalar .string)]],
   message "GeneratedCodeInfo"
    [repeated "annotation" 1 (ref "Annotation"),
     message "Annotation"
      [repeated "path" 1 (scalar .int32), string "source_file" 2, int32 "begin" 3, int32 "end" 4,
       enumFrom "Semantic" 0 ["NONE", "SET", "ALIAS"],
       optional "semantic" 5 (ref "Semantic")]]]

def descriptor : FileSource where
  package := some "google.protobuf"
  members := fileDescriptors ++ messageDescriptors ++ optionMessages ++ featureMessages ++
    infoMessages ++ [editions]

end SchemaBindings.Proto.WellKnown
