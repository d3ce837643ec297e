import ModelSchema.Catalogue
import ModelSchema.Document.Render
import ModelSchema.Schema.Generate

namespace ModelSchema.Console

def moduleName : String :=
  "console"

def package (path java namePart : String) : Package :=
  ⟨path, "", java, namePart⟩

def packages : List Package :=
  [package "k8s.io/api/core/v1" "io.fabric8.kubernetes.api.model" "kubernetes_core_",
    package "k8s.io/apimachinery/pkg/api/resource" "io.fabric8.kubernetes.api.model"
      "kubernetes_resource_",
    package "k8s.io/apimachinery/pkg/util/intstr" "io.fabric8.kubernetes.api.model"
      "kubernetes_apimachinery_pkg_util_intstr_",
    package Standard.runtimePackage "io.fabric8.openshift.api.model.runtime"
      "kubernetes_apimachinery_pkg_runtime_",
    package Standard.versionPackage "io.fabric8.kubernetes.api.model.version"
      "kubernetes_apimachinery_pkg_version_",
    package "k8s.io/kubernetes/pkg/util" "io.fabric8.kubernetes.api.model" "kubernetes_util_",
    package "k8s.io/kubernetes/pkg/api/errors" "io.fabric8.kubernetes.api.model"
      "kubernetes_errors_",
    package "k8s.io/kubernetes/pkg/api/unversioned" "io.fabric8.kubernetes.api.model" "api_",
    package Standard.metaPackage "io.fabric8.kubernetes.api.model" "kubernetes_apimachinery_",
    package Api.Console.package "io.fabric8.openshift.api.model.console.v1" "os_console_v1_"]

def substitutions : List (TypeRef × TypeRef) :=
  [(Standard.dateTime, Standard.string), (Standard.unit, Standard.string)]

def settings : Settings :=
  { packages, substitutions, moduleName }

def root : TypeRef :=
  Standard.consoleType "Schema"

def graph : TypeGraph :=
  Catalogue.graph {} [root]

def schema : Outcome :=
  graph.generate settings root

inductive Failure where
  | generate (error : GenerateError)
  | render (error : RenderError)

def Failure.message : Failure → String
  | .generate e => e.message
  | .render e => e.message

/-- The rendered schema; the resources are kept only for validation. -/
def generate (validation : Bool) : Except Failure String := do
  let document ← schema.result.mapError .generate
  (if validation then document else document.clearResources).render.mapError .render

end ModelSchema.Console
