import ModelSchema.Api.Console

namespace ModelSchema

namespace Standard

def string : TypeRef := .standard "String"
def bool : TypeRef := .standard "bool"
def int32 : TypeRef := .standard "i32"
def int64 : TypeRef := .standard "i64"
def dateTime : TypeRef := .standard "DateTime"
def unit : TypeRef := .standard "()"
def labels : TypeRef := .map .sorted string string

def primitives : List (String × TypeInfo) :=
  [("String", ⟨"string", "", none, .primitive .string⟩),
    ("bool", ⟨"bool", "", none, .primitive .bool⟩),
    ("i8", ⟨"int8", "", none, .primitive .int8⟩),
    ("i16", ⟨"int16", "", none, .primitive .int16⟩),
    ("i32", ⟨"int32", "", none, .primitive .int32⟩),
    ("i64", ⟨"int64", "", none, .primitive .int64⟩),
    ("isize", ⟨"int", "", none, .primitive .int64⟩),
    ("u8", ⟨"uint8", "", none, .primitive .uint8⟩),
    ("u16", ⟨"uint16", "", none, .primitive .uint16⟩),
    ("u32", ⟨"uint32", "", none, .primitive .uint32⟩),
    ("u64", ⟨"uint64", "", none, .primitive .uint64⟩),
    ("usize", ⟨"uint", "", none, .primitive .uint64⟩),
    ("f32", ⟨"float32", "", none, .primitive .float32⟩),
    ("f64", ⟨"float64", "", none, .primitive .float64⟩)]

def others : List (String × TypeInfo) :=
  [("Value", ⟨"", "", none, .any⟩),
    ("()", ⟨"", "", none, .struct []⟩),
    ("DateTime", ⟨"DateTime", "chrono", none, .struct []⟩)]

def metaPackage : String :=
  "k8s.io/apimachinery/pkg/apis/meta/v1"

def runtimePackage : String :=
  "k8s.io/apimachinery/pkg/runtime"

def versionPackage : String :=
  "k8s.io/apimachinery/pkg/version"

def required (name : String) (type : TypeRef) : Field :=
  { name, type, isRequired := true }

def extra (name : String) (type : TypeRef) : Field :=
  { name, type, omitEmpty := true }

def maybe (name : String) (type : TypeRef) : Field :=
  extra name (.option type)

def embed (type : TypeRef) : Field :=
  { name := "", type, isInline := true }

def typeMeta : TypeRef :=
  .standard "TypeMeta"

def table (package name : String) (fields : List Field) : String × TypeInfo :=
  (name, { name, package, kind := .struct fields })

def machinery : List (String × TypeInfo) :=
  [table metaPackage "TypeMeta" [extra "apiVersion" string, extra "kind" string],
    table metaPackage "List"
      [embed typeMeta, extra "metadata" .listMeta,
        required "items" (.list (.standard "RawExtension"))],
    table metaPackage "Patch" [],
    table metaPackage "ObjectMeta"
      [maybe "name" string, maybe "generateName" string, maybe "namespace" string,
        maybe "selfLink" string, maybe "uid" string, maybe "resourceVersion" string,
        maybe "generation" int64, maybe "creationTimestamp" (.standard "Time"),
        maybe "deletionTimestamp" (.standard "Time"), maybe "deletionGracePeriodSeconds" int64,
        maybe "labels" labels, maybe "annotations" labels,
        maybe "ownerReferences" (.list (.standard "OwnerReference")),
        maybe "finalizers" (.list string),
        maybe "managedFields" (.list (.standard "ManagedFieldsEntry"))],
    table metaPackage "ListMeta"
      [maybe "selfLink" string, maybe "resourceVersion" string, maybe "continue" string,
        maybe "remainingItemCount" int64],
    table metaPackage "Time" [required "Time" dateTime],
    table metaPackage "OwnerReference"
      [required "apiVersion" string, required "kind" string, required "name" string,
        required "uid" string, maybe "controller" bool, maybe "blockOwnerDeletion" bool],
    table metaPackage "ManagedFieldsEntry"
      [maybe "manager" string, maybe "operation" string, maybe "apiVersion" string,
        maybe "time" (.standard "Time"), maybe "fieldsType" string,
        maybe "fieldsV1" (.standard "FieldsV1"), maybe "subresource" string],
    table metaPackage "FieldsV1" [],
    table metaPackage "LabelSelector"
      [maybe "matchLabels" labels,
        maybe "matchExpressions" (.list (.standard "LabelSelectorRequirement"))],
    table metaPackage "LabelSelectorRequirement"
      [required "key" string, required "operator" string, maybe "values" (.list string)],
    table metaPackage "Status"
      [embed typeMeta, maybe "metadata" .listMeta, maybe "status" string, maybe "message" string,
        maybe "reason" string, maybe "details" (.standard "StatusDetails"), maybe "code" int32],
    table metaPackage "StatusDetails"
      [maybe "name" string, maybe "group" string, maybe "kind" string, maybe "uid" string,
        maybe "causes" (.list (.standard "StatusCause")), maybe "retryAfterSeconds" int32],
    table metaPackage "StatusCause"
      [maybe "reason" string, maybe "message" string, maybe "field" string],
    table metaPackage "APIGroup"
      [embed typeMeta, required "name" string,
        required "versions" (.list (.standard "GroupVersionForDiscovery")),
        maybe "preferredVersion" (.standard "GroupVersionForDiscovery"),
        maybe "serverAddressByClientCIDRs" (.list (.standard "ServerAddressByClientCIDR"))],
    table metaPackage "APIGroupList"
      [embed typeMeta, required "groups" (.list (.standard "APIGroup"))],
    table metaPackage "GroupVersionForDiscovery"
      [required "groupVersion" string, required "version" string],
    table metaPackage "ServerAddressByClientCIDR"
      [required "clientCIDR" string, required "serverAddress" string],
    table runtimePackage "RawExtension" [],
    table versionPackage "Info"
      [required "major" string, required "minor" string, required "gitVersion" string,
        required "gitCommit" string, required "gitTreeState" string, required "buildDate" string,
        required "goVersion" string, required "compiler" string, required "platform" string]]

def consoleType (name : String) : TypeRef :=
  .standard ("console." ++ name)

def consoleKinds : List (String × TypeInfo) :=
  Api.Console.shapes.filterMap fun s =>
    match s.typeRef, s.typeInfo? Api.Console.package with
    | .standard id, some info => some (id, info)
    | _, _ => none

def consoleRoot : String × TypeInfo :=
  ("console.Schema",
    { name := "Schema"
      package := "openshift_model_console"
      description := some "Root aggregate: every type reachable from here ends up in the schema"
      kind := .struct <|
        [required "Info" (.standard "Info"), required "APIGroup" (.standard "APIGroup"),
          required "APIGroupList" (.standard "APIGroupList"),
          required "BaseKubernetesList" (.standard "List"),
          required "ObjectMeta" .objectMeta, required "TypeMeta" typeMeta,
          required "Status" (.standard "Status"), required "Patch" (.standard "Patch"),
          required "Time" (.standard "Time")] ++
        ["ConsoleCLIDownload", "ConsoleCLIDownloadList", "ConsoleExternalLogLink",
          "ConsoleExternalLogLinkList", "ConsoleLink", "ConsoleLinkList", "ConsoleNotification",
          "ConsoleNotificationList", "ConsoleYAMLSample", "ConsoleYAMLSampleList"].map
          fun name => required name (consoleType name) })

def types : List (String × TypeInfo) :=
  primitives ++ others ++ machinery ++ consoleKinds ++ [consoleRoot]

end Standard

end ModelSchema
