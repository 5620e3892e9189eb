/-!
# Message types

The messages that a schema compiler and its plugins exchange, with all of their fields.

* `MessageType.fields`       what is declared in a type: tags, names and types of fields;
* `MessageType.field? tag`   the name and the type of a field; `none` for a tag that is not declared.
-/

namespace RpcAdapters.Wire

inductive MessageType where
  | request
  | version
  | descriptorSet
  | file
  | message
  | messageField
  | oneof
  | enum
  | enumValue
  | extensionRange
  | reservedRange
  | enumReservedRange
  | service
  | method
  | options
  | messageOptions
  | fieldOptions
  | oneofOptions
  | enumOptions
  | enumValueOptions
  | extensionRangeOptions
  | serviceOptions
  | methodOptions
  | uninterpretedOption
  | namePart
  | sourceCodeInfo
  | location
  | response
  | responseFile
  | generatedCodeInfo
  | annotation
  deriving DecidableEq, Repr

inductive FieldType where
  | text
  | bytes
  | flag
  | number
  /-- any number of numbers, one by one or several behind one key -/
  | numbers
  /-- a floating-point number of 64 bits -/
  | double
  | message (type : MessageType)
  deriving DecidableEq, Repr

namespace MessageType

def name : MessageType → String
  | request => "CodeGeneratorRequest"
  | version => "Version"
  | descriptorSet => "FileDescriptorSet"
  | file => "FileDescriptorProto"
  | message => "DescriptorProto"
  | messageField => "FieldDescriptorProto"
  | oneof => "OneofDescriptorProto"
  | enum => "EnumDescriptorProto"
  | enumValue => "EnumValueDescriptorProto"
  | extensionRange => "ExtensionRange"
  | reservedRange => "ReservedRange"
  | enumReservedRange => "EnumReservedRange"
  | service => "ServiceDescriptorProto"
  | method => "MethodDescriptorProto"
  | options => "FileOptions"
  | messageOptions => "MessageOptions"
  | fieldOptions => "FieldOptions"
  | oneofOptions => "OneofOptions"
  | enumOptions => "EnumOptions"
  | enumValueOptions => "EnumValueOptions"
  | extensionRangeOptions => "ExtensionRangeOptions"
  | serviceOptions => "ServiceOptions"
  | methodOptions => "MethodOptions"
  | uninterpretedOption => "UninterpretedOption"
  | namePart => "NamePart"
  | sourceCodeInfo => "SourceCodeInfo"
  | location => "Location"
  | response => "CodeGeneratorResponse"
  | responseFile => "File"
  | generatedCodeInfo => "GeneratedCodeInfo"
  | annotation => "Annotation"

/-- every kind of options has it -/
def uninterpreted : Nat × String × FieldType :=
  (999, "uninterpreted_option", .message uninterpretedOption)

def fields : MessageType → List (Nat × String × FieldType)
  | request => [
    (1, "file_to_generate", .text),
    (2, "parameter", .text),
    (3, "compiler_version", .message version),
    (15, "proto_file", .message file)]
  | version => [
    (1, "major", .number),
    (2, "minor", .number),
    (3, "patch", .number),
    (4, "suffix", .text)]
  | descriptorSet => [(1, "file", .message file)]
  | file => [
    (1, "name", .text),
    (2, "package", .text),
    (3, "dependency", .text),
    (4, "message_type", .message message),
    (5, "enum_type", .message enum),
    (6, "service", .message service),
    (7, "extension", .message messageField),
    (8, "options", .message options),
    (9, "source_code_info", .message sourceCodeInfo),
    (10, "public_dependency", .numbers),
    (11, "weak_dependency", .numbers),
    (12, "syntax", .text)]
  | message => [
    (1, "name", .text),
    (2, "field", .message messageField),
    (3, "nested_type", .message message),
    (4, "enum_type", .message enum),
    (5, "extension_range", .message extensionRange),
    (6, "extension", .message messageField),
    (7, "options", .message messageOptions),
    (8, "oneof_decl", .message oneof),
    (9, "reserved_range", .message reservedRange),
    (10, "reserved_name", .text)]
  | messageField => [
    (1, "name", .text),
    (2, "extendee", .text),
    (3, "number", .number),
    (4, "label", .number),
    (5, "r#type", .number),
    (6, "type_name", .text),
    (7, "default_value", .text),
    (8, "options", .message fieldOptions),
    (9, "oneof_index", .number),
    (10, "json_name", .text),
    (17, "proto3_optional", .flag)]
  | oneof => [
    (1, "name", .text),
    (2, "options", .message oneofOptions)]
  | enum => [
    (1, "name", .text),
    (2, "value", .message enumValue),
    (3, "options", .message enumOptions),
    (4, "reserved_range", .message enumReservedRange),
    (5, "reserved_name", .text)]
  | enumValue => [
    (1, "name", .text),
    (2, "number", .number),
    (3, "options", .message enumValueOptions)]
  | extensionRange => [
    (1, "start", .number),
    (2, "end", .number),
    (3, "options", .message extensionRangeOptions)]
  | reservedRange | enumReservedRange => [
    (1, "start", .number),
    (2, "end", .number)]
  | service => [
    (1, "name", .text),
    (2, "method", .message method),
    (3, "options", .message serviceOptions)]
  | method => [
    (1, "name", .text),
    (2, "input_type", .text),
    (3, "output_type", .text),
    (4, "options", .message methodOptions),
    (5, "client_streaming", .flag),
    (6, "server_streaming", .flag)]
  | options => [
    (1, "java_package", .text),
    (8, "java_outer_classname", .text),
    (9, "optimize_for", .number),
    (10, "java_multiple_files", .flag),
    (11, "go_package", .text),
    (16, "cc_generic_services", .flag),
    (17, "java_generic_services", .flag),
    (18, "py_generic_services", .flag),
    (20, "java_generate_equals_and_hash", .flag),
    (23, "deprecated", .flag),
    (27, "java_string_check_utf8", .flag),
    (31, "cc_enable_arenas", .flag),
    (36, "objc_class_prefix", .text),
    (37, "csharp_namespace", .text),
    (39, "swift_prefix", .text),
    (40, "php_class_prefix", .text),
    (41, "php_namespace", .text),
    (42, "php_generic_services", .flag),
    (44, "php_metadata_namespace", .text),
    (45, "ruby_package", .text),
    uninterpreted]
  | messageOptions => [
    (1, "message_set_wire_format", .flag),
    (2, "no_standard_descriptor_accessor", .flag),
    (3, "deprecated", .flag),
    (7, "map_entry", .flag),
    uninterpreted]
  | fieldOptions => [
    (1, "ctype", .number),
    (2, "packed", .flag),
    (3, "deprecated", .flag),
    (5, "lazy", .flag),
    (6, "jstype", .number),
    (10, "weak", .flag),
    uninterpreted]
  | oneofOptions | extensionRangeOptions => [uninterpreted]
  | enumOptions => [
    (2, "allow_alias", .flag),
    (3, "deprecated", .flag),
    uninterpreted]
  | enumValueOptions => [
    (1, "deprecated", .flag),
    uninterpreted]
  | serviceOptions => [
    (33, "deprecated", .flag),
    uninterpreted]
  | methodOptions => [
    (33, "deprecated", .flag),
    (34, "idempotency_level", .number),
    uninterpreted]
  | uninterpretedOption => [
    (2, "name", .message namePart),
    (3, "identifier_value", .text),
    (4, "positive_int_value", .number),
    (5, "negative_int_value", .number),
    (6, "double_value", .double),
    (7, "string_value", .bytes),
    (8, "aggregate_value", .text)]
  | namePart => [
    (1, "name_part", .text),
    (2, "is_extension", .flag)]
  | sourceCodeInfo => [(1, "location", .message location)]
  | location => [
    (1, "path", .numbers),
    (2, "span", .numbers),
    (3, "leading_comments", .text),
    (4, "trailing_comments", .text),
    (6, "leading_detached_comments", .text)]
  | response => [
    (1, "error", .text),
    (2, "supported_features", .number),
    (15, "file", .message responseFile)]
  | responseFile => [
    (1, "name", .text),
    (2, "insertion_point", .text),
    (15, "content", .text),
    (16, "generated_code_info", .message generatedCodeInfo)]
  | generatedCodeInfo => [(1, "annotation", .message annotation)]
  | annotation => [
    (1, "path", .numbers),
    (2, "source_file", .text),
    (3, "begin", .number),
    (4, "end", .number)]

def field? (type : MessageType) (tag : Nat) : Option (String × FieldType) := type.fields.lookup tag

end MessageType

end RpcAdapters.Wire
