import ModelSchema.Api.Choice
import ModelSchema.Api.Shape

namespace ModelSchema.Api

open Json (Node Mark Key Ending)

def Fields.Slots : Fields → Type
  | .nil => Unit
  | .own _ s rest => Option s.Value × rest.Slots
  | .spread _ _ rest => rest.Slots

def Fields.noSlots : (fs : Fields) → fs.Slots
  | .nil => ()
  | .own _ _ rest => (none, rest.noSlots)
  | .spread _ _ rest => rest.noSlots

def Fields.missing? : (fs : Fields) → fs.Slots → Option String
  | .nil, _ => none
  | .own l _ rest, (slot, slots) =>
    if l.presence = .required ∧ slot.isNone then some l.name else rest.missing? slots
  | .spread _ _ rest, slots => rest.missing? slots

def Fields.spreads : Fields → Bool
  | .nil => false
  | .own _ _ rest => rest.spreads
  | .spread _ _ _ => true

def Fields.count : Fields → Nat
  | .nil => 0
  | .own _ _ rest => rest.count + 1
  | .spread _ _ rest => rest.count + 1

def wantedRecord (l : Label) : Reading → String
  | .strict => "struct " ++ l.name
  | .lenient => l.name

/-- There are more items than the record has fields; `taken` of them have been read. A comma
stands before every item but the first. -/
def surplus (origin : Origin) (taken length : Nat) (ending : Ending) (x : Node) : Failure :=
  match origin, ending with
  | .value, .closed stop => ⟨.length length "fewer elements in array", stop⟩
  | _, _ =>
    match taken, (startOf x).rest with
    | 0, ',' :: rest =>
      let place := Mark.behindNext (Json.skipBlank rest)
      ⟨.text (if place.begins ']' then .trailingItemComma else .trailingText), place⟩
    | _, rest => ⟨.text .trailingText, .behindNext rest⟩

/-- Behind the item of its last field a record takes nothing but the closing bracket. -/
def closeItems : Ending → Except Failure Unit
  | .closed _ => .ok ()
  | .torn t =>
    if t.fault.problem = .unfinishedArray ∨ t.fault.problem = .trailingItemComma then
      .error (.ofFault t.fault)
    else .error ⟨.text .trailingText, t.fault.place⟩

def isNull : Node → Bool
  | .leaf .null _ _ => true
  | _ => false

/-- What begins like null is read as null, where it may stand. -/
def checkNull (x : Node) : Except Failure Unit :=
  match x with
  | .torn start t => if start.begins 'n' then .error (.ofFault t.fault) else .ok ()
  | _ => .ok ()

/-- All failures inside what was set aside are noticed where the whole object ends. -/
def noticedAt {α : Type} (place : Mark) (r : Except Failure α) : Except Failure α :=
  r.mapError fun f => { f with place }

mutual

def Shape.decode (origin : Origin) : (s : Shape) → Node → Except Failure s.Value
  | .text, .leaf (.string v) _ _ => .ok v
  | .text, x => wrongType "a string" x
  | .flag, .leaf (.bool v) _ _ => .ok v
  | .flag, x => wrongType "a boolean" x
  | .int64, .leaf (.int n) _ stop =>
    if Int64.minValue.toInt ≤ n ∧ n ≤ Int64.maxValue.toInt then .ok (Int64.ofInt n)
    else .error ⟨.value (.int n) "i64", stop⟩
  | .int64, x => wrongType "i64" x
  | .moment, .leaf (.string v) _ stop =>
    match Moment.ofText? v with
    | .ok m => .ok m
    | .error p => .error ⟨.moment p, stop⟩
  | .moment, x => wrongType "an RFC 3339 formatted date and time string" x
  | .raw, x => takeJson origin.limit x
  | .choice _ first others, x => decodeChoice origin first others x
  | .list e, .array _ items ending => do
    let vs ← items.mapM (Shape.decode origin.inside e)
    let _ ← stopOf ending
    return vs
  | .list _, x => wrongType "a sequence" x
  | .table e, .object _ members ending => do
    let vs ← members.foldlM (fun vs m => do
      checkKey m.1
      let v ← Shape.decode origin.inside e m.2
      return Entries.insertSorted vs m.1.name v) []
    let _ ← stopOf ending
    return vs
  | .table _, x => wrongType "a map" x
  | .optional _, .leaf .null _ _ => .ok none
  | .optional e, x => do
    checkNull x
    let v ← Shape.decode origin e x
    return some v
  | .record _ .lenient fs, .object _ members ending => do
    let slots ← members.foldlM (fun slots m => do
      checkKey m.1
      match ← fs.store origin.inside true slots m.1 m.2 with
      | some slots => return slots
      | none => passOver m.2; return slots) fs.noSlots
    let stop ← stopOf ending
    fs.complete origin.inside stop [] slots
  | .record _ .strict fs, .object _ members ending => do
    let (slots, aside) ← members.foldlM (fun (state : fs.Slots × List (Key × Node)) m => do
      checkKey m.1
      match ← fs.store origin.inside false state.1 m.1 m.2 with
      | some slots => return (slots, state.2)
      | none =>
        if fs.spreads then do
          let _ ← takeJson origin.inside.limit m.2
          return (state.1, state.2 ++ [m])
        else do
          passOver m.2
          return state) (fs.noSlots, [])
    let stop ← stopOf ending
    match fs.missing? slots with
    | some name => .error ⟨.missing name, stop⟩
    | none => fs.complete origin.inside stop aside slots
  | .record l .strict fs, .array start items ending =>
    if fs.spreads then wrongType (wantedRecord l .strict) (.array start items ending)
    else do
      let wanted := wantedRecord l .strict ++ " with " ++ toString fs.count ++
        (if fs.count = 1 then " element" else " elements")
      fs.decodeItems origin.inside wanted items.length ending 0 items
  | .record l .lenient _, .array start _ _ =>
    .error ⟨.type .array (wantedRecord l .lenient), leaveArray start⟩
  | .record l reading _, x => wrongType (wantedRecord l reading) x

/-- Gives a member to the field it names; none if no field has that name. A field that has
something already is an error, unless the last of equal keys counts; then null takes it away. -/
def Fields.store (origin : Origin) (lastCounts : Bool) :
    (fs : Fields) → fs.Slots → Key → Node → Except Failure (Option fs.Slots)
  | .nil, _, _, _ => .ok none
  | .own l s rest, (slot, slots), k, x =>
    if l.name = k.name then
      if slot.isSome ∧ ¬lastCounts then .error ⟨.duplicate l.name, leaveObject k.stop⟩
      else if lastCounts ∧ isNull x then .ok (some (none, slots))
      else do
        let v ← s.decode origin x
        return some (some v, slots)
    else do
      match ← rest.store origin lastCounts slots k x with
      | some slots => return some (slot, slots)
      | none => return none
  | .spread _ _ rest, slots, k, x => rest.store origin lastCounts slots k x

def Fields.complete (origin : Origin) (stop : Mark) (aside : List (Key × Node)) :
    (fs : Fields) → fs.Slots → Except Failure fs.Values
  | .nil, _ => .ok ()
  | .own _ s rest, (slot, slots) => do
    let vs ← rest.complete origin stop aside slots
    return (slot.getD s.default, vs)
  | .spread _ fs rest, slots => do
    let inner ← noticedAt stop <| aside.foldlM (fun inner m => do
      match ← fs.store origin false inner m.1 m.2 with
      | some inner => return inner
      | none => return inner) fs.noSlots
    match fs.missing? inner with
    | some name => .error ⟨.missing name, stop⟩
    | none =>
      let v ← fs.complete origin stop [] inner
      let vs ← rest.complete origin stop aside slots
      return (v, vs)

def Fields.decodeItems (origin : Origin) (wanted : String) (length : Nat) (ending : Ending) :
    (index : Nat) → (fs : Fields) → List Node → Except Failure fs.Values
  | _, .nil, [] => closeItems ending
  | index, .nil, x :: _ => .error (surplus origin index length ending x)
  | index, .own l s rest, [] => do
    let stop ← stopOf ending
    if l.presence = .required then .error ⟨.length index wanted, stop⟩
    let vs ← rest.decodeItems origin wanted length ending (index + 1) []
    return (s.default, vs)
  | index, .own _ s rest, x :: xs => do
    let v ← s.decode origin x
    let vs ← rest.decodeItems origin wanted length ending (index + 1) xs
    return (v, vs)
  | index, .spread _ fs rest, xs => do
    let vs ← rest.decodeItems origin wanted length ending (index + 1) xs
    return (fs.default, vs)

end

end ModelSchema.Api
