import ModelSchema.Api.Origin
import ModelSchema.Proofs.Values

namespace ModelSchema.Api

open Json (Node Key)

mutual

theorem passingFault?_ofJson : ∀ v : Json, passingFault? (.ofJson v) = none
  | .null | .bool _ | .int _ | .float _ | .string _ => rfl
  | .array xs => by
    rw [Node.ofJson, passingFault?, passingFault_items, passingFaultOfEnding?, Option.or_none]
  | .object ms => by
    rw [Node.ofJson, passingFault?, passingFault_members, passingFaultOfEnding?, Option.or_none]

theorem passingFault_items : ∀ xs : List Json,
    passingFaultOfItems? (Json.nodesOfItems xs) = none
  | [] => rfl
  | x :: xs => by
    rw [Json.nodesOfItems, passingFaultOfItems?, passingFault?_ofJson x, passingFault_items xs,
      Option.or_none]

theorem passingFault_members : ∀ ms : List (String × Json),
    passingFaultOfMembers? (Json.nodesOfMembers ms) = none
  | [] => rfl
  | (_, v) :: ms => by
    rw [Json.nodesOfMembers, passingFaultOfMembers?, passingFault?_ofJson v,
      passingFault_members ms, Option.or_none]

end

theorem passOver_ofJson (v : Json) : passOver (.ofJson v) = .ok () := by
  rw [passOver, passingFault?_ofJson]

mutual

theorem toJson_ofJson : ∀ v : Json, (Node.ofJson v).toJson none = .ok v.merged
  | .null | .bool _ | .int _ | .float _ | .string _ => rfl
  | .array xs =>
    congrArg (fun r => r.bind fun xs => .ok (Json.array xs)) (toJson_items xs)
  | .object ms =>
    congrArg (fun r => r.bind fun ms => .ok (Json.object (Entries.ofList ms))) (toJson_members ms)

theorem toJson_items : ∀ xs : List Json,
    Json.itemsToJson none (Json.nodesOfItems xs) = .ok (Json.mergedItems xs)
  | [] => rfl
  | x :: xs => by
    rw [Json.nodesOfItems, Json.itemsToJson, toJson_ofJson x, toJson_items xs]
    rfl

theorem toJson_members : ∀ ms : List (String × Json),
    Json.membersToJson none (Json.nodesOfMembers ms) = .ok (Json.mergedMembers ms)
  | [] => rfl
  | (_, v) :: ms => by
    rw [Json.nodesOfMembers, Json.membersToJson, toJson_ofJson v, toJson_members ms]
    rfl

end

theorem takeJson_ofJson (v : Json) : takeJson none (.ofJson v) = .ok v.merged := by
  rw [takeJson, toJson_ofJson]
  rfl

theorem nodesOfMembers_append (ms ns : List (String × Json)) :
    Json.nodesOfMembers (ms ++ ns) = Json.nodesOfMembers ms ++ Json.nodesOfMembers ns := by
  induction ms with
  | nil => rfl
  | cons m ms ih =>
    rw [List.cons_append, Json.nodesOfMembers, ih, Json.nodesOfMembers, List.cons_append]

theorem foldlM_nodesOfMembers {σ : Type} {f : σ → Key × Node → Except Failure σ}
    {ms : List (String × Json)} (state : List (String × Json) → σ)
    (h : ∀ before k j after, before ++ (k, j) :: after = ms →
      f (state before) ({ name := k, stop := .nowhere }, .ofJson j) =
        .ok (state (before ++ [(k, j)]))) :
    (Json.nodesOfMembers ms).foldlM f (state []) = .ok (state ms) := by
  suffices ∀ after before, before ++ after = ms →
      (Json.nodesOfMembers after).foldlM f (state before) = .ok (state ms) from this ms [] rfl
  intro after
  induction after with
  | nil =>
    rintro before rfl
    rw [List.append_nil]
    rfl
  | cons m after ih =>
    intro before hms
    rw [Json.nodesOfMembers, List.foldlM_cons, h before m.1 m.2 after hms]
    exact ih (before ++ [m]) (by rw [← hms, List.append_assoc, List.singleton_append])

end ModelSchema.Api
