import ModelSchema.Source.Rename

namespace ModelSchema

namespace Source

/-- A lower-case letter, and behind it lower-case letters and digits. -/
def IsWord (word : String) : Prop :=
  ∃ c cs, word.toList = c :: cs ∧ c.isLower ∧ ∀ d ∈ cs, d.isLower ∨ d.isDigit

/-- One word or more, with an underscore between each two. -/
def IsSnake (name : String) : Prop :=
  ∃ words : List String, words ≠ [] ∧ (∀ w ∈ words, IsWord w) ∧ name = "_".intercalate words

inductive Continues : List Char → Prop where
  | nil : Continues []
  | more {c : Char} {cs : List Char} (h : c.isLower ∨ c.isDigit) (hcs : Continues cs) :
    Continues (c :: cs)
  | word {c : Char} {cs : List Char} (h : c.isLower) (hcs : Continues cs) :
    Continues ('_' :: c :: cs)

theorem Continues.append {cs rest : List Char} (h : ∀ d ∈ cs, d.isLower ∨ d.isDigit)
    (hrest : Continues rest) : Continues (cs ++ rest) := by
  induction cs with
  | nil => exact hrest
  | cons c cs ih =>
    obtain ⟨hc, hcs⟩ := List.forall_mem_cons.mp h
    exact .more hc (ih hcs)

theorem IsSnake.letters {name : String} (h : IsSnake name) :
    ∃ c cs, name.toList = c :: cs ∧ c.isLower ∧ Continues cs := by
  obtain ⟨words, hne, hwords, rfl⟩ := h
  induction words with
  | nil => exact absurd rfl hne
  | cons w ws ih =>
    obtain ⟨⟨c, cs, hw, hc, hcs⟩, hws⟩ := List.forall_mem_cons.mp hwords
    cases ws with
    | nil =>
      refine ⟨c, cs, ?_, hc, ?_⟩
      · rw [String.intercalate_singleton, hw]
      · exact List.append_nil cs ▸ Continues.append hcs .nil
    | cons w' ws =>
      obtain ⟨c', cs', hname, hc', hcs'⟩ := ih (List.cons_ne_nil _ _) hws
      refine ⟨c, cs ++ '_' :: c' :: cs', ?_, hc, .append hcs (.word hc' hcs')⟩
      rw [String.intercalate_cons_cons, String.toList_append, String.toList_append, hw, hname,
        List.append_assoc]
      rfl

section

variable {c : Char}

@[elab_as_elim]
theorem char_cases {first count : Nat} {P : Char → Prop} (c : Char)
    (hc : first ≤ c.toNat ∧ c.toNat < first + count)
    (h : ∀ n < count, P (Char.ofNat (first + n))) : P c := by
  have hchar := h (c.toNat - first) (by omega)
  rwa [Nat.add_sub_cancel' hc.1, Char.ofNat_toNat] at hchar

theorem range_of_between {low high : UInt32}
    (h : (decide (low ≤ c.val) && decide (c.val ≤ high)) = true) :
    low.toNat ≤ c.toNat ∧ c.toNat < high.toNat + 1 := by
  obtain ⟨hlow, hhigh⟩ := Bool.and_eq_true_iff.mp h
  exact ⟨UInt32.le_iff_toNat_le.mp (of_decide_eq_true hlow),
    Nat.lt_succ_of_le (UInt32.le_iff_toNat_le.mp (of_decide_eq_true hhigh))⟩

theorem isLower_range (h : c.isLower) : 97 ≤ c.toNat ∧ c.toNat < 97 + 26 :=
  range_of_between h

theorem isDigit_range (h : c.isDigit) : 48 ≤ c.toNat ∧ c.toNat < 48 + 10 :=
  range_of_between h

theorem plain_of_word (h : c.isLower ∨ c.isDigit) :
    c ≠ '_' ∧ Text.isUppercase c = false ∧ c.toLower = c := by
  obtain h | h := h
  · exact char_cases c (isLower_range h) (by decide +kernel)
  · exact char_cases c (isDigit_range h) (by decide +kernel)

theorem capital_of_lower (h : c.isLower) :
    Text.isUppercase c.toUpper = true ∧ c.toUpper.toLower = c :=
  char_cases c (isLower_range h) (by decide +kernel)

end

section

variable {c : Char} {cs : List Char}

theorem pascalFrom_word (capital : Bool) (h : c.isLower ∨ c.isDigit) :
    pascalFrom capital (c :: cs) = (if capital then c.toUpper else c) :: pascalFrom false cs := by
  rw [pascalFrom, if_neg (plain_of_word h).1]

theorem snakeTail_pascalFrom (h : Continues cs) : snakeTail (pascalFrom false cs) = cs := by
  induction h with
  | nil => rfl
  | @more c cs hc _ ih =>
    obtain ⟨-, hupper, hlower⟩ := plain_of_word hc
    rw [pascalFrom_word false hc, if_neg Bool.false_ne_true, snakeTail, hupper,
      if_neg Bool.false_ne_true, hlower, ih]
  | @word c cs hc _ ih =>
    obtain ⟨hupper, hlower⟩ := capital_of_lower hc
    rw [pascalFrom, if_pos rfl, pascalFrom_word true (Or.inl hc), if_pos rfl, snakeTail,
      if_pos hupper, hlower, ih]

theorem snakeOf_pascalFrom (hc : c.isLower) (hcs : Continues cs) :
    snakeOf (pascalFrom true (c :: cs)) = c :: cs := by
  rw [pascalFrom_word true (Or.inl hc), if_pos rfl, snakeOf, (capital_of_lower hc).2,
    snakeTail_pascalFrom hcs]

theorem lowerFirst_pascalFrom (hc : c.isLower) :
    lowerFirst (pascalFrom true (c :: cs)) = c :: pascalFrom false cs := by
  rw [pascalFrom_word true (Or.inl hc), if_pos rfl, lowerFirst, (capital_of_lower hc).2]

end

theorem IsSnake.snake_pascal {name : String} (h : IsSnake name) :
    snakeOf (pascalFrom true name.toList) = name.toList := by
  obtain ⟨c, cs, hname, hc, hcs⟩ := h.letters
  rw [hname, snakeOf_pascalFrom hc hcs]

theorem IsSnake.pascal_of_camel {name other : String} (h : IsSnake name) (ho : IsSnake other)
    (heq : lowerFirst (pascalFrom true name.toList) = lowerFirst (pascalFrom true other.toList)) :
    pascalFrom true name.toList = pascalFrom true other.toList := by
  obtain ⟨c, cs, hname, hc, -⟩ := h.letters
  obtain ⟨c', cs', hother, hc', -⟩ := ho.letters
  rw [hname, hother, lowerFirst_pascalFrom hc, lowerFirst_pascalFrom hc'] at heq
  obtain ⟨rfl, htail⟩ := List.cons.inj heq
  rw [hname, hother, pascalFrom_word true (Or.inl hc), pascalFrom_word true (Or.inl hc), htail]

end Source

namespace Proofs.WordCase

open Source

/-- A rule gives a field the name that it gives to the variant called like the field in Pascal case.
So snake case on variants undoes Pascal case on fields, and neither Pascal nor camel case gives one
name to two fields. -/
theorem variant_of_field {name : String} (h : IsSnake name) :
    (∀ r ∈ [RenameRule.pascal, .camel, .snake, .screamingSnake, .kebab, .screamingKebab],
      r.variant (RenameRule.pascal.field name) = r.field name) ∧
    RenameRule.snake.variant (RenameRule.pascal.field name) = name ∧
    ∀ other, IsSnake other →
      (RenameRule.pascal.field name = RenameRule.pascal.field other → name = other) ∧
      (RenameRule.camel.field name = RenameRule.camel.field other → name = other) := by
  have hpascal : ∀ other, IsSnake other →
      pascalFrom true name.toList = pascalFrom true other.toList → name = other := by
    intro other ho heq
    rw [← String.toList_inj, ← h.snake_pascal, heq, ho.snake_pascal]
  refine ⟨?_, ?_, fun other ho => ⟨fun heq => ?_, fun heq => ?_⟩⟩
  · simp only [List.forall_mem_cons, RenameRule.variant, RenameRule.field, RenameRule.variantChars,
      RenameRule.fieldChars, String.toList_ofList, h.snake_pascal]
    simp
  · rw [RenameRule.variant, RenameRule.field, String.toList_ofList]
    exact (congrArg String.ofList h.snake_pascal).trans String.ofList_toList
  · exact hpascal other ho (String.ofList_injective heq)
  · exact hpascal other ho (h.pascal_of_camel ho (String.ofList_injective heq))

theorem x509_cert_v3_variant : IsSnake "x509_cert_v3" ∧ IsSnake "x509cert_v3" ∧
    RenameRule.pascal.field "x509_cert_v3" = "X509CertV3" ∧
    RenameRule.snake.variant "X509CertV3" = "x509_cert_v3" ∧
    RenameRule.screamingKebab.variant "X509CertV3" = "X509-CERT-V3" ∧
    RenameRule.camel.field "x509_cert_v3" ≠ RenameRule.camel.field "x509cert_v3" := by
  have hx509 : IsWord "x509" := ⟨'x', ['5', '0', '9'], rfl, by decide, by simp⟩
  have hcert : IsWord "cert" := ⟨'c', ['e', 'r', 't'], rfl, by decide, by simp⟩
  have hx509cert : IsWord "x509cert" :=
    ⟨'x', ['5', '0', '9', 'c', 'e', 'r', 't'], rfl, by decide, by simp⟩
  have hv3 : IsWord "v3" := ⟨'v', ['3'], rfl, by decide, by simp⟩
  have hsnake : IsSnake "x509_cert_v3" :=
    ⟨["x509", "cert", "v3"], by simp, by simp [hx509, hcert, hv3], by decide⟩
  have hother : IsSnake "x509cert_v3" :=
    ⟨["x509cert", "v3"], by simp, by simp [hx509cert, hv3], by decide⟩
  have hpascal : RenameRule.pascal.field "x509_cert_v3" = "X509CertV3" := by decide
  obtain ⟨hrules, hinverse, hapart⟩ := variant_of_field hsnake
  have hkebab := hrules .screamingKebab (by simp)
  rw [hpascal] at hinverse hkebab
  refine ⟨hsnake, hother, hpascal, hinverse, hkebab.trans (by decide), fun heq => ?_⟩
  exact absurd ((hapart _ hother).2 heq) (by decide)

end Proofs.WordCase

end ModelSchema
