import ModelSchema.Api.Shape

namespace ModelSchema.Api

def maybe (name : String) (shape : Shape) (rest : Fields) : Fields :=
  .own { name, presence := .omittable } (.optional shape) rest

def always (name : String) (shape : Shape) (rest : Fields) : Fields :=
  .own { name, presence := .defaulted } shape rest

def metadata (name : String) (fields : Fields) : Shape :=
  .record { type := .standard name, name } .lenient fields

def ownerReference : Shape :=
  metadata "OwnerReference" <|
    always "apiVersion" .text <|
    maybe "blockOwnerDeletion" .flag <|
    maybe "controller" .flag <|
    always "kind" .text <|
    always "name" .text <|
    always "uid" .text .nil

def managedFieldsEntry : Shape :=
  metadata "ManagedFieldsEntry" <|
    maybe "apiVersion" .text <|
    maybe "fieldsType" .text <|
    maybe "fieldsV1" .raw <|
    maybe "manager" .text <|
    maybe "operation" .text <|
    maybe "subresource" .text <|
    maybe "time" .moment .nil

def objectMeta : Shape :=
  metadata "ObjectMeta" <|
    maybe "annotations" (.table .text) <|
    maybe "creationTimestamp" .moment <|
    maybe "deletionGracePeriodSeconds" .int64 <|
    maybe "deletionTimestamp" .moment <|
    maybe "finalizers" (.list .text) <|
    maybe "generateName" .text <|
    maybe "generation" .int64 <|
    maybe "labels" (.table .text) <|
    maybe "managedFields" (.list managedFieldsEntry) <|
    maybe "name" .text <|
    maybe "namespace" .text <|
    maybe "ownerReferences" (.list ownerReference) <|
    maybe "resourceVersion" .text <|
    maybe "selfLink" .text <|
    maybe "uid" .text .nil

def listMeta : Shape :=
  metadata "ListMeta" <|
    maybe "continue" .text <|
    maybe "remainingItemCount" .int64 <|
    maybe "resourceVersion" .text <|
    maybe "selfLink" .text .nil

def labelSelectorRequirement : Shape :=
  metadata "LabelSelectorRequirement" <|
    always "key" .text <|
    always "operator" .text <|
    maybe "values" (.list .text) .nil

def labelSelector : Shape :=
  metadata "LabelSelector" <|
    maybe "matchExpressions" (.list labelSelectorRequirement) <|
    maybe "matchLabels" (.table .text) .nil

def required (name : String) (shape : Shape) (rest : Fields) : Fields :=
  .own { name } shape rest

def strictRecord (name : String) (fields : Fields) : Shape :=
  .record { type := .standard name, name } .strict fields

def typeMetaLabel : Label :=
  { type := .standard "TypeMeta", name := "TypeMeta" }

def typeMetaFields : Fields :=
  required "apiVersion" .text <|
  required "kind" .text .nil

def typeMeta : Shape :=
  .record typeMetaLabel .strict typeMetaFields

def objectList : Shape :=
  strictRecord "List" <|
    .spread typeMetaLabel typeMetaFields <|
    .own { name := "metadata", presence := .defaulted } listMeta <|
    required "items" (.list .raw) .nil

def patch : Shape :=
  strictRecord "Patch" .nil

def packageDescriptor : Shape :=
  strictRecord "PackageDescriptor" <|
    required "package" .text <|
    required "apiGroup" .text <|
    required "javaPackage" .text <|
    required "prefix" .text .nil

end ModelSchema.Api
