import ModelSchema.Document.Render

namespace ModelSchema

inductive PropertyEdit where
  | reset
  | typed (type : InstanceType)
  | reference (name javaType : String)
  | described (text : Option String)
  | existingJavaType (javaType : String)
  | javaType (javaType : String)
  | pin (value : String)
  | default (value : Json)
  | enumValues (values : List Json)
  | interface (javaType : String)
  | omitEmpty (value : Bool)
  | items (source : String)
  | mapValue (source : String)
  | noObject
  | openObject
  | closedObject
  | require (name : String)
  | property (name source : String)

inductive DocumentEdit where
  | id (text : String)
  | dialect (text : String)
  | type (type : InstanceType)
  | description (text : Option String)
  | define (name source : String)
  | resource (name source : String)
  | resources
  | clearResources
  | openObject
  | closedObject
  | require (name : String)
  | property (name source : String)

inductive Edit where
  | property (register : String) (edit : PropertyEdit)
  | document (edit : DocumentEdit)
  | render

structure Draft where
  document : Document := {}
  registers : Entries Property := []

namespace Draft

/-- A register that was never written holds the empty property. -/
def register (d : Draft) (name : String) : Property :=
  (Entries.get? d.registers name).getD {}

def editProperty (d : Draft) (p : Property) : PropertyEdit → Property
  | .reset => {}
  | .typed t => .typed t
  | .reference name javaType => .referenceTo name javaType
  | .described text => p.described text
  | .existingJavaType t => p.withExistingJavaType t
  | .javaType t => p.withJavaType t
  | .pin value => p.pinned value
  | .default v => { p with descriptor := { p.descriptor with default := some v } }
  | .enumValues vs => { p with descriptor := { p.descriptor with enumValues := some vs } }
  | .interface t => { p with java := { p.java with interfaces := p.java.interfaces ++ [t] } }
  | .omitEmpty b => { p with java := { p.java with omitEmpty := b } }
  | .items source => { p with items := some (d.register source) }
  | .mapValue source => { p with mapValue := some (d.register source) }
  | .noObject => { p with object := none }
  | .openObject => { p with object := some .open }
  | .closedObject => { p with object := some {} }
  | .require name => { p with object := some ((p.object.getD .open).require name) }
  | .property name source =>
    { p with object := some ((p.object.getD .open).insert name (d.register source)) }

def editDocument (d : Draft) : DocumentEdit → Document
  | .id text => { d.document with id := text }
  | .dialect text => { d.document with dialect := text }
  | .type t =>
    { d.document with descriptor := { d.document.descriptor with instanceType := some t } }
  | .description text =>
    { d.document with descriptor := { d.document.descriptor with description := text } }
  | .define name source =>
    { d.document with
      definitions := Entries.insertSorted d.document.definitions name (d.register source) }
  | .resource name source =>
    { d.document with
      resources := some (Entries.insertSorted (d.document.resources.getD []) name
        (d.register source)) }
  | .resources => { d.document with resources := some [] }
  | .clearResources => d.document.clearResources
  | .openObject => { d.document with object := .open }
  | .closedObject => { d.document with object := {} }
  | .require name => { d.document with object := d.document.object.require name }
  | .property name source =>
    { d.document with object := d.document.object.insert name (d.register source) }

def apply (d : Draft) : Edit → Except RenderError (Draft × String)
  | .property register edit =>
    let p := d.editProperty (d.register register) edit
    .ok ({ d with registers := Entries.insert d.registers register p }, p.toJson.compact)
  | .document edit =>
    let doc := d.editDocument edit
    .ok ({ d with document := doc }, doc.toJson.compact)
  | .render => (d.document.render).map fun text => (d, text)

def run (d : Draft) : List Edit → Except RenderError (List String)
  | [] => .ok []
  | e :: es => do
    let (d, text) ← d.apply e
    return text :: (← d.run es)

end Draft

end ModelSchema
