import ModelSchema.Document.Render
import ModelSchema.Proofs.Numbers
import ModelSchema.Proofs.Strings
import ModelSchema.Proofs.Values

namespace ModelSchema

namespace Text

theorem startsWith?_append (p text : List Char) : startsWith? p (p ++ text) = some text := by
  induction p with
  | nil => rfl
  | cons a p ih => simpa [startsWith?] using ih

variable {p r : List Char}

theorem replaceFrom_eq (done text : List Char) :
    replaceFrom p r done text = done.reverse ++ replaceAll p r text := by
  induction hn : text.length using Nat.strongRecOn generalizing done text with
  | ind n ih =>
    cases text with
    | nil => simp [replaceAll, replaceFrom]
    | cons c cs =>
      have hshort : cs.length < n := by rw [← hn, List.length_cons]; omega
      have hskip : ∀ done, replaceFrom p r done cs = done.reverse ++ replaceAll p r cs :=
        fun done => ih cs.length hshort done cs rfl
      unfold replaceAll replaceFrom
      split
      · rename_i rest hrest
        split
        · rw [hskip, hskip]
          simp
        · rename_i hp
          have hlen := congrArg List.length (eq_append_of_startsWith? hrest)
          have hpos := List.length_pos_iff.mpr hp
          simp only [List.length_append, List.length_cons] at hlen hn
          rw [ih rest.length (by omega) _ rest rfl, ih rest.length (by omega) _ rest rfl]
          simp
      · rw [hskip, hskip]
        simp

@[simp] theorem replaceAll_nil : replaceAll p r [] = [] := by
  simp [replaceAll, replaceFrom]

theorem replaceAll_cons {c : Char} {cs : List Char} (h : startsWith? p (c :: cs) = none) :
    replaceAll p r (c :: cs) = c :: replaceAll p r cs := by
  rw [replaceAll, replaceFrom]
  split
  · rename_i hs
    cases h.symm.trans hs
  · rw [replaceFrom_eq]
    rfl

theorem replaceAll_append (hp : p ≠ []) (text : List Char) :
    replaceAll p r (p ++ text) = r ++ replaceAll p r text := by
  obtain ⟨a, p', rfl⟩ := List.exists_cons_of_ne_nil hp
  have hs := startsWith?_append (a :: p') text
  rw [List.cons_append] at hs ⊢
  rw [replaceAll, replaceFrom]
  split
  · rename_i rest hrest
    cases hs.symm.trans hrest
    rw [if_neg hp, replaceFrom_eq]
    simp
  · rename_i hnone
    cases hs.symm.trans hnone

end Text

/-- Whether the correction meets a key: the key of map values, or one that ends in it behind a
quote. -/
def EndsInMapKey (key : String) : Prop :=
  key = mapValueKey ∨ '\"' :: mapValueKey.toList <:+ key.toList

instance (key : String) : Decidable (EndsInMapKey key) :=
  inferInstanceAs (Decidable (_ ∨ _))

def plural (word : List Char) : List Char :=
  word.dropLast ++ ['i', 'e', 's']

/-- A key as the correction leaves it: one that it meets ends in the plural. -/
def correctKey (key : String) : String :=
  if EndsInMapKey key then String.ofList (plural key.toList) else key

theorem EndsInMapKey.getLast? {key : String} (h : EndsInMapKey key) :
    key.toList.getLast? = some 'y' := by
  obtain rfl | ⟨before, hkey⟩ := h
  · decide
  · rw [← hkey, List.getLast?_append]
    rfl

theorem not_endsInMapKey_correctKey (key : String) : ¬EndsInMapKey (correctKey key) := by
  unfold correctKey
  split
  · intro h
    have hlast := h.getLast?
    rw [String.toList_ofList, plural, List.getLast?_append] at hlast
    cases hlast
  · assumption

theorem correctKeys_cons {c : Char} (hc : c ≠ '\"') (text : List Char) :
    correctKeys (c :: text) = c :: correctKeys text :=
  Text.replaceAll_cons (if_neg (Ne.symm hc))

theorem correctKeys_append {l : List Char} (hl : '\"' ∉ l) (text : List Char) :
    correctKeys (l ++ text) = l ++ correctKeys text := by
  induction l with
  | nil => rfl
  | cons c l ih =>
    obtain ⟨hc, hl⟩ := not_or.mp (mt List.mem_cons.mpr hl)
    rw [List.cons_append, correctKeys_cons (Ne.symm hc), ih hl, List.cons_append]

theorem correctKeys_quote (text : List Char) :
    correctKeys ('\"' :: text) =
      match Text.startsWith? (mapValueKey.toList ++ ['\"', ':']) text with
      | some rest => correctedPattern ++ correctKeys rest
      | none => '\"' :: correctKeys text := by
  split
  · rename_i rest hrest
    rw [Text.eq_append_of_startsWith? hrest]
    exact Text.replaceAll_append (by decide) rest
  · rename_i hnone
    exact Text.replaceAll_cons hnone

namespace Json

theorem startsWith?_escaped {name : List Char} (hname : ∀ c ∈ name, escape c = [c])
    (cs text : List Char) :
    Text.startsWith? (name ++ ['\"', ':']) (escaped cs ('\"' :: text)) =
      if cs = name then Text.startsWith? [':'] text else none := by
  induction name generalizing cs with
  | nil =>
    cases cs with
    | nil => rfl
    | cons c cs =>
      rw [escaped_cons, if_neg (List.cons_ne_nil c cs)]
      generalize hwritten : escape c = written
      cases hwritten ▸ escape_written c with
      | bare quote backslash control => exact if_neg (Ne.symm quote)
      | letter | number => rfl
  | cons a name ih =>
    obtain ⟨ha, hname⟩ := List.forall_mem_cons.mp hname
    have hquote : a ≠ '\"' := by
      rintro rfl
      cases ha
    have hbackslash : a ≠ '\\' := by
      rintro rfl
      cases ha
    cases cs with
    | nil => exact if_neg hquote
    | cons c cs =>
      rw [escaped_cons, List.cons_append]
      by_cases hc : c = a
      · subst c
        rw [ha, List.singleton_append, Text.startsWith?, if_pos rfl, ih hname cs]
        simp
      · rw [if_neg (by simp [hc])]
        generalize hwritten : escape c = written
        cases hwritten ▸ escape_written c with
        | bare quote backslash control => exact if_neg (Ne.symm hc)
        | letter | number => exact if_neg hbackslash

theorem escape_mapValueKey : ∀ c ∈ mapValueKey.toList, escape c = [c] :=
  forall_mem_of_all (by decide)

theorem correctKeys_quote_escaped (cs text : List Char) :
    correctKeys ('\"' :: escaped cs ('\"' :: ':' :: text)) =
      if cs = mapValueKey.toList then correctedPattern ++ correctKeys text
      else '\"' :: correctKeys (escaped cs ('\"' :: ':' :: text)) := by
  rw [correctKeys_quote, startsWith?_escaped escape_mapValueKey]
  split_ifs <;> rfl

/-- What the correction makes of a key behind its first quote, where it can only meet a later
one. -/
def correctBehind (cs : List Char) : List Char :=
  if '\"' :: mapValueKey.toList <:+ cs then plural cs else cs

theorem correctBehind_cons {c : Char} {cs : List Char}
    (h : c = '\"' → cs ≠ mapValueKey.toList) :
    correctBehind (c :: cs) = c :: correctBehind cs := by
  have hwhole : '\"' :: mapValueKey.toList ≠ c :: cs := by
    intro heq
    obtain ⟨hc, hcs⟩ := List.cons.inj heq
    exact h hc.symm hcs.symm
  have hiff : '\"' :: mapValueKey.toList <:+ c :: cs ↔ '\"' :: mapValueKey.toList <:+ cs := by
    rw [List.suffix_cons_iff, or_iff_right hwhole]
  unfold correctBehind
  by_cases hs : '\"' :: mapValueKey.toList <:+ cs
  · have hne : cs ≠ [] := fun hnil => by simp [hnil] at hs
    rw [if_pos hs, if_pos (hiff.mpr hs), plural, List.dropLast_cons_of_ne_nil hne, List.cons_append]
    rfl
  · rw [if_neg hs, if_neg (mt hiff.mp hs)]

theorem correctedPattern_append (text : List Char) :
    correctedPattern ++ text =
      '\"' :: escaped (plural mapValueKey.toList) ('\"' :: ':' :: text) := by
  rw [escaped_bare (forall_mem_of_all (by decide))]
  rfl

theorem correctKeys_escaped (cs text : List Char) :
    correctKeys (escaped cs ('\"' :: ':' :: text)) =
      escaped (correctBehind cs) ('\"' :: ':' :: correctKeys text) := by
  have hcolon : correctKeys (':' :: text) = ':' :: correctKeys text :=
    correctKeys_cons (by decide) text
  induction cs with
  | nil => exact (Text.replaceAll_cons rfl).trans (congrArg (List.cons '\"') hcolon)
  | cons c cs ih =>
    rw [escaped_cons]
    by_cases hc : c = '\"'
    · subst c
      show correctKeys ('\\' :: '\"' :: escaped cs _) = _
      rw [correctKeys_cons (by decide), correctKeys_quote_escaped]
      split_ifs with hcs
      · subst cs
        rw [correctedPattern_append]
        rfl
      · rw [ih, correctBehind_cons fun _ => hcs]
        rfl
    · rw [correctKeys_append (quote_not_mem_escape hc), ih,
        correctBehind_cons fun h => absurd h hc, escaped_cons]

theorem correctKey_toList (key : String) :
    (correctKey key).toList =
      if key.toList = mapValueKey.toList then plural mapValueKey.toList
      else correctBehind key.toList := by
  unfold correctKey EndsInMapKey correctBehind
  by_cases hkey : key = mapValueKey
  · simp [hkey]
  · have hlist : key.toList ≠ mapValueKey.toList := mt String.toList_inj.mp hkey
    simp only [hkey, hlist, false_or, if_false]
    split_ifs
    · rw [String.toList_ofList]
    · rfl

theorem correctKeys_key (key : String) (text : List Char) :
    correctKeys (quoted key (':' :: text)) = quoted (correctKey key) (':' :: correctKeys text) := by
  rw [quoted_eq, quoted_eq, correctKeys_quote_escaped, correctKey_toList]
  split_ifs
  · exact correctedPattern_append _
  · rw [correctKeys_escaped]

theorem Delimited.startsWith?_eq_none {rest : List Char} (h : Delimited rest) {c : Char}
    (hc : c = ':' ∨ c = 'a') (cs : List Char) : Text.startsWith? (c :: cs) rest = none := by
  cases rest with
  | nil => rfl
  | cons d rest =>
    refine if_neg fun heq => ?_
    have hd := h d rfl
    obtain rfl | rfl := hc <;> subst heq <;> revert hd <;> decide

theorem correctKeys_quote_delimited (cs : List Char) {rest : List Char} (h : Delimited rest) :
    correctKeys ('\"' :: escaped cs ('\"' :: rest)) =
      '\"' :: correctKeys (escaped cs ('\"' :: rest)) := by
  rw [correctKeys_quote, startsWith?_escaped escape_mapValueKey,
    h.startsWith?_eq_none (Or.inl rfl), ite_self]

theorem correctKeys_escaped_delimited (cs : List Char) {rest : List Char} (h : Delimited rest) :
    correctKeys (escaped cs ('\"' :: rest)) = escaped cs ('\"' :: correctKeys rest) := by
  induction cs with
  | nil =>
    have hnone : Text.startsWith? (mapValueKey.toList ++ ['\"', ':']) rest = none :=
      h.startsWith?_eq_none (Or.inr rfl) _
    show correctKeys ('\"' :: rest) = '\"' :: correctKeys rest
    rw [correctKeys_quote, hnone]
  | cons c cs ih =>
    rw [escaped_cons, escaped_cons, ← ih]
    by_cases hc : c = '\"'
    · subst c
      show correctKeys ('\\' :: '\"' :: escaped cs _) = _
      rw [correctKeys_cons (by decide), correctKeys_quote_delimited cs h]
      rfl
    · rw [correctKeys_append (quote_not_mem_escape hc)]

theorem correctKeys_string (s : String) {rest : List Char} (h : Delimited rest) :
    correctKeys (quoted s rest) = quoted s (correctKeys rest) := by
  rw [quoted_eq, correctKeys_quote_delimited _ h, correctKeys_escaped_delimited _ h, quoted_eq]

theorem delimited_compactItems (xs : List Json) (rest : List Char) :
    Delimited (compactItems xs rest) := by
  cases xs <;> exact delimited_cons (by decide) _

theorem delimited_compactMembers (ms : List (String × Json)) (rest : List Char) :
    Delimited (compactMembers ms rest) := by
  cases ms <;> exact delimited_cons (by decide) _

def Corrects (v : Json) : Prop :=
  ∀ rest, Delimited rest →
    correctKeys (compactOnto v rest) = compactOnto (v.mapKeys correctKey) (correctKeys rest)

theorem correctKeys_compactItems {xs : List Json} (h : ∀ x ∈ xs, Corrects x) (rest : List Char) :
    correctKeys (compactItems xs rest) =
      compactItems (mapItemKeys correctKey xs) (correctKeys rest) := by
  induction xs with
  | nil => exact correctKeys_cons (by decide) rest
  | cons x xs ih =>
    obtain ⟨hx, hxs⟩ := List.forall_mem_cons.mp h
    rw [compactItems, correctKeys_cons (by decide), hx _ (delimited_compactItems xs rest), ih hxs]
    rfl

theorem correctKeys_compactMembers {ms : List (String × Json)} (h : ∀ m ∈ ms, Corrects m.2)
    (rest : List Char) :
    correctKeys (compactMembers ms rest) =
      compactMembers (mapMemberKeys correctKey ms) (correctKeys rest) := by
  induction ms with
  | nil => exact correctKeys_cons (by decide) rest
  | cons m ms ih =>
    obtain ⟨hm, hms⟩ := List.forall_mem_cons.mp h
    rw [compactMembers, correctKeys_cons (by decide), correctKeys_key,
      hm _ (delimited_compactMembers ms rest), ih hms]
    rfl

/-- On the text of a value the correction does what it should: it changes keys, wherever they
stand, and nothing else. -/
theorem correctKeys_compactOnto (v : Json) : Corrects v := by
  induction v using Json.induction with
  | null => exact fun rest _ => correctKeys_append (l := ['n', 'u', 'l', 'l']) (by decide) rest
  | bool b =>
    intro rest _
    cases b with
    | true => exact correctKeys_append (l := ['t', 'r', 'u', 'e']) (by decide) rest
    | false => exact correctKeys_append (l := ['f', 'a', 'l', 's', 'e']) (by decide) rest
  | int n =>
    have hquote : '\"' ∉ intText n :=
      fun hmem => absurd (isNumeric_of_mem_intText hmem) (by decide)
    exact fun rest _ => correctKeys_append hquote rest
  | float x =>
    have hquote : '\"' ∉ x.text := fun hmem => absurd (isNumeric_of_mem_text _ hmem) (by decide)
    exact fun rest _ => correctKeys_append hquote rest
  | string s => exact fun rest h => correctKeys_string s h
  | array xs ih =>
    intro rest _
    cases xs with
    | nil => exact correctKeys_append (l := ['[', ']']) (by decide) rest
    | cons x xs =>
      obtain ⟨hx, hxs⟩ := List.forall_mem_cons.mp ih
      rw [compactOnto, correctKeys_cons (by decide), hx _ (delimited_compactItems xs rest),
        correctKeys_compactItems hxs]
      rfl
  | object ms ih =>
    intro rest _
    cases ms with
    | nil => exact correctKeys_append (l := ['\x7b', '\x7d']) (by decide) rest
    | cons m ms =>
      obtain ⟨hm, hms⟩ := List.forall_mem_cons.mp ih
      rw [compactOnto, correctKeys_cons (by decide), correctKeys_key,
        hm _ (delimited_compactMembers ms rest), correctKeys_compactMembers hms]
      rfl

theorem correctKeys_compactChars (v : Json) :
    correctKeys v.compactChars = (v.mapKeys correctKey).compactChars := by
  have hnil : correctKeys [] = [] := Text.replaceAll_nil
  have hcorrects := correctKeys_compactOnto v [] delimited_nil
  rwa [hnil] at hcorrects

end Json

theorem Document.correctedText_eq (d : Document) :
    d.correctedText = (d.toJson.mapKeys correctKey).compactChars :=
  Json.correctKeys_compactChars d.toJson

end ModelSchema
