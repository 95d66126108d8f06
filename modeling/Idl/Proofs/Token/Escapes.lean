/-
# Escapes

Which bodies of literals denote which texts, told without a reader: code points that stand for
themselves, the short escapes, and escapes by two or four hexadecimal digits.  Reading the body
of a literal finds exactly the body up to the first mark that is not escaped, and the text that
it denotes (`Literal.readBody_eq_closed_iff`).
-/
import Idl.Proofs.Token.Literal

namespace Idl

namespace Literal

/-- The short escapes: what stands behind the backslash, and what it denotes. -/
def shortEscapes : List (Char × Char) :=
  [('n', '\n'), ('r', '\r'), ('t', '\t'), ('0', '\x00'), ('a', '\x07'), ('b', '\x08'),
   ('f', '\x0c'), ('v', '\x0b'), ('\\', '\\'), ('"', '"'), ('\'', '\'')]

/-- The body of a literal, without the marks around it, denotes a text. -/
inductive Denotes : Text → Text → Prop
  /-- Nothing at all. -/
  | nil : Denotes [] []
  /-- A code point that stands for itself. -/
  | point {c : CodePoint} {body value : Text} (hquote : c ≠ '"') (hbreak : c ≠ '\n')
      (hbackslash : c ≠ '\\') (hbody : Denotes body value) : Denotes (c :: body) (c :: value)
  /-- A backslash and one code point. -/
  | short {e x : Char} {body value : Text} (h : (e, x) ∈ shortEscapes)
      (hbody : Denotes body value) :
      Denotes (.scalar '\\' :: .scalar e :: body) (.scalar x :: value)
  /-- Two hexadecimal digits behind `\x`. -/
  | byte {h₁ h₂ : CodePoint} {n : Nat} {body value : Text} (h : Text.hexValue? [h₁, h₂] = some n)
      (hbody : Denotes body value) :
      Denotes (.scalar '\\' :: .scalar 'x' :: h₁ :: h₂ :: body) (.ofNat n :: value)
  /-- Four hexadecimal digits behind `\u`. -/
  | unit {h₁ h₂ h₃ h₄ : CodePoint} {n : Nat} {body value : Text}
      (h : Text.hexValue? [h₁, h₂, h₃, h₄] = some n) (hbody : Denotes body value) :
      Denotes (.scalar '\\' :: .scalar 'u' :: h₁ :: h₂ :: h₃ :: h₄ :: body) (.ofNat n :: value)

variable {body r s spelling value : Text}

lemma find?_cons_map {α β : Type} (a : α) (as : List α) (p : α → Bool) (f : α → β) :
    ((a :: as).find? p).map f = if p a then some (f a) else (as.find? p).map f := by
  rw [List.find?_cons]
  cases p a <;> rfl

/-- A chain of choices is a search in a table. -/
lemma simpleEscape?_eq_find (c : CodePoint) : simpleEscape? c =
    (shortEscapes.find? fun p => c = .scalar p.1).map fun p => .scalar p.2 := by
  simp only [shortEscapes, find?_cons_map, decide_eq_true_eq, List.find?_nil, Option.map_none]
  rfl

lemma simpleEscape?_eq_some_iff {c x : CodePoint} :
    simpleEscape? c = some x ↔ ∃ p ∈ shortEscapes, c = .scalar p.1 ∧ x = .scalar p.2 := by
  constructor
  · rw [simpleEscape?_eq_find, Option.map_eq_some_iff]
    rintro ⟨p, hp, rfl⟩
    exact ⟨p, List.mem_of_find?_eq_some hp, by simpa using List.find?_some hp, rfl⟩
  · have hall : ∀ p ∈ shortEscapes, simpleEscape? (.scalar p.1) = some (.scalar p.2) := by decide
    rintro ⟨p, hp, rfl, rfl⟩
    exact hall p hp

/-- An escape by four digits is read as the code point of that number. -/
lemma readBody_unitEscape {h₁ h₂ h₃ h₄ : CodePoint} {n : Nat}
    (h : Text.hexValue? [h₁, h₂, h₃, h₄] = some n) (r : Text) :
    readBody (.scalar '\\' :: .scalar 'u' :: h₁ :: h₂ :: h₃ :: h₄ :: r) =
      (readBody r).prepend (CodePoint.ofNat n)
        [.scalar '\\', .scalar 'u', h₁, h₂, h₃, h₄] := by
  have hquote : ¬ CodePoint.scalar '\\' = CodePoint.scalar '"' := by decide
  have hbreak : ¬ CodePoint.scalar '\\' = CodePoint.scalar '\n' := by decide
  have hsimple : simpleEscape? (CodePoint.scalar 'u') = none := by decide
  have hbyte : ¬ CodePoint.scalar 'u' = CodePoint.scalar 'x' := by decide
  rw [readBody.eq_def]
  simp only [if_neg hquote, if_neg hbreak, if_true, hsimple, if_neg hbyte, h]

/-- A body and the mark behind it are read as what the body denotes, whatever follows. -/
lemma Denotes.readBody_append (h : Denotes body value) (r : Text) :
    readBody (body ++ .scalar '"' :: r) = .closed value (body ++ [.scalar '"']) r := by
  induction h with
  | nil =>
    rw [List.nil_append, readBody.eq_def]
    simp only [if_true, List.nil_append]
  | point hquote hbreak hbackslash _ ih =>
    rw [List.cons_append, readBody_plain hquote hbreak hbackslash, ih]
    rfl
  | @short e x _ _ h _ ih =>
    simp only [List.cons_append]
    rw [readBody_simpleEscape (simpleEscape?_eq_some_iff.2 ⟨(e, x), h, rfl, rfl⟩), ih]
    rfl
  | byte h _ ih =>
    simp only [List.cons_append]
    rw [readBody_hexEscape h, ih]
    rfl
  | unit h _ ih =>
    simp only [List.cons_append]
    rw [readBody_unitEscape h, ih]
    rfl

lemma Body.prepend_eq_closed {c : CodePoint} {w : Text} {b : Body}
    (h : b.prepend c w = .closed value spelling r) :
    ∃ v u, b = .closed v u r ∧ value = c :: v ∧ spelling = w ++ u := by
  cases b <;> cases h
  exact ⟨_, _, rfl, rfl, rfl⟩

/-- Behind a backslash stands an escape of one of the three sorts. -/
lemma exists_of_readBody_escape (h : readBody (.scalar '\\' :: s) = .closed value spelling r) :
    ∃ (c : CodePoint) (w t v u : Text), s = w ++ t ∧ readBody t = .closed v u r ∧
      value = c :: v ∧ spelling = .scalar '\\' :: w ++ u ∧
      ∀ body value, Denotes body value → Denotes (.scalar '\\' :: w ++ body) (c :: value) := by
  have hquote : ¬ CodePoint.scalar '\\' = CodePoint.scalar '"' := by decide
  have hbreak : ¬ CodePoint.scalar '\\' = CodePoint.scalar '\n' := by decide
  rw [readBody.eq_def] at h
  simp only [if_neg hquote, if_neg hbreak, if_true] at h
  rcases s with _ | ⟨e, s⟩
  · cases h
  rcases hv : simpleEscape? e with _ | x <;> simp only [hv] at h
  · by_cases hbyte : e = .scalar 'x'
    · rw [if_pos hbyte] at h
      rcases s with _ | ⟨h₁, _ | ⟨h₂, s⟩⟩
      · cases h
      · cases h
      rcases hn : Text.hexValue? [h₁, h₂] with _ | n <;> simp only [hn] at h
      · cases h
      · obtain ⟨v, u, hr, rfl, rfl⟩ := Body.prepend_eq_closed h
        subst hbyte
        exact ⟨_, [_, h₁, h₂], s, v, u, rfl, hr, rfl, rfl, fun _ _ => .byte hn⟩
    rw [if_neg hbyte] at h
    by_cases hunit : e = .scalar 'u'
    · rw [if_pos hunit] at h
      rcases s with _ | ⟨h₁, _ | ⟨h₂, _ | ⟨h₃, _ | ⟨h₄, s⟩⟩⟩⟩
      · cases h
      · cases h
      · cases h
      · cases h
      rcases hn : Text.hexValue? [h₁, h₂, h₃, h₄] with _ | n <;> simp only [hn] at h
      · cases h
      · obtain ⟨v, u, hr, rfl, rfl⟩ := Body.prepend_eq_closed h
        subst hunit
        exact ⟨_, [_, h₁, h₂, h₃, h₄], s, v, u, rfl, hr, rfl, rfl, fun _ _ => .unit hn⟩
    · rw [if_neg hunit] at h
      cases h
  · obtain ⟨v, u, hr, rfl, rfl⟩ := Body.prepend_eq_closed h
    obtain ⟨p, hp, rfl, rfl⟩ := simpleEscape?_eq_some_iff.1 hv
    exact ⟨_, [_], s, v, u, rfl, hr, rfl, rfl, fun _ _ => .short hp⟩

/-- What is read up to the closing mark denotes the value. -/
lemma denotes_of_readBody (s : Text) {value spelling r : Text}
    (h : readBody s = .closed value spelling r) :
    ∃ body, spelling = body ++ [.scalar '"'] ∧ Denotes body value := by
  have ih : ∀ t : Text, t.length < s.length → ∀ v u, readBody t = .closed v u r →
      ∃ body, u = body ++ [.scalar '"'] ∧ Denotes body v :=
    fun t _ _ _ ht => denotes_of_readBody t ht
  rcases s with _ | ⟨c, s⟩
  · rw [readBody.eq_def] at h
    cases h
  by_cases hbackslash : c = .scalar '\\'
  · subst hbackslash
    obtain ⟨c, w, t, v, u, rfl, ht, rfl, rfl, hdenotes⟩ := exists_of_readBody_escape h
    have hlength : t.length < (.scalar '\\' :: (w ++ t)).length := by
      rw [List.length_cons, List.length_append]
      omega
    obtain ⟨body, rfl, hbody⟩ := ih t hlength v u ht
    exact ⟨.scalar '\\' :: w ++ body, by simp, hdenotes body v hbody⟩
  by_cases hquote : c = .scalar '"'
  · rw [readBody.eq_def] at h
    simp only [if_pos hquote] at h
    cases h
    subst hquote
    exact ⟨[], rfl, .nil⟩
  by_cases hbreak : c = .scalar '\n'
  · rw [readBody.eq_def] at h
    simp only [if_neg hquote, if_pos hbreak] at h
    cases h
  · rw [readBody_plain hquote hbreak hbackslash] at h
    obtain ⟨v, u, hr, rfl, rfl⟩ := Body.prepend_eq_closed h
    obtain ⟨body, rfl, hbody⟩ := ih s (by simp) v u hr
    exact ⟨c :: body, rfl, .point hquote hbreak hbackslash hbody⟩
termination_by s.length

/-- Reading the body of a literal finds the body that ends at the first mark outside an escape. -/
lemma readBody_eq_closed_iff : readBody s = .closed value spelling r ↔
    s = spelling ++ r ∧ ∃ body, spelling = body ++ [.scalar '"'] ∧ Denotes body value := by
  constructor
  · intro h
    have htext := text_readBody s
    rw [h] at htext
    exact ⟨htext.symm, denotes_of_readBody s h⟩
  · rintro ⟨rfl, body, rfl, hbody⟩
    rw [List.append_assoc]
    exact hbody.readBody_append r

/-- Only hexadecimal digits have a value together. -/
lemma isHexDigit_of_mem {n : Nat} (h : Text.hexValue? s = some n) : ∀ c ∈ s, c.isHexDigit := by
  have hfrom (t : Text) (m n : Nat)
      (h : t.foldlM (fun n c => c.hexValue?.map (16 * n + ·)) m = some n) :
      ∀ c ∈ t, c.isHexDigit := by
    induction t generalizing m with
    | nil => simp
    | cons d t ih =>
      simp only [List.foldlM_cons, Option.bind_eq_bind, Option.bind_eq_some_iff,
        Option.map_eq_some_iff] at h
      obtain ⟨_, ⟨x, hx, rfl⟩, h⟩ := h
      exact List.forall_mem_cons.2 ⟨by simp [CodePoint.isHexDigit, hx], ih _ h⟩
  exact hfrom s 0 n h

/-- A body stands on one line. -/
lemma Denotes.break_not_mem (h : Denotes body value) : .scalar '\n' ∉ body := by
  have hdigit : CodePoint.isHexDigit (.scalar '\n') = false := by decide
  have hdigits {t : Text} {n : Nat} (h : Text.hexValue? t = some n) : .scalar '\n' ∉ t := by
    intro hmem
    rw [isHexDigit_of_mem h _ hmem] at hdigit
    cases hdigit
  induction h with
  | nil => simp
  | point _ hbreak _ _ ih => simpa using ⟨Ne.symm hbreak, ih⟩
  | @short e x _ _ h _ ih =>
    have hletters : ∀ p ∈ shortEscapes, p.1 ≠ '\n' := by decide
    simpa using ⟨(hletters _ h).symm, ih⟩
  | byte h _ ih | unit h _ ih =>
    have hdigits := hdigits h
    simp only [List.mem_cons, List.not_mem_nil, or_false, not_or] at hdigits
    simp [hdigits, ih]

end Literal

end Idl
