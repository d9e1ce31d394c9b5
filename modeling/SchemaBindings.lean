import SchemaBindings.FileTree
import SchemaBindings.Main
import SchemaBindings.Proofs.Binding.Clients
import SchemaBindings.Proofs.Binding.Enums
import SchemaBindings.Proofs.Binding.Fields
import SchemaBindings.Proofs.Descriptor.Entities
import SchemaBindings.Proofs.Docs.Indentation
import SchemaBindings.Proofs.FileTree.Replacement
import SchemaBindings.Proofs.Naming.CamelCase
import SchemaBindings.Proofs.Naming.Claims
import SchemaBindings.Proofs.Package.Acceptance
import SchemaBindings.Proofs.Package.Agreement
import SchemaBindings.Proofs.Package.Compiled
import SchemaBindings.Proofs.Package.Composition
import SchemaBindings.Proofs.Package.ExternTypes
import SchemaBindings.Proofs.Package.FiniteSize
import SchemaBindings.Proofs.Package.ModuleTree
import SchemaBindings.Proofs.Package.Offences
import SchemaBindings.Proofs.Package.Order
import SchemaBindings.Proofs.Package.References
import SchemaBindings.Proofs.Package.Refusals
import SchemaBindings.Proofs.Package.Safety
import SchemaBindings.Proofs.Package.Written
import SchemaBindings.Proofs.Run
import SchemaBindings.Proofs.Schema.Json
