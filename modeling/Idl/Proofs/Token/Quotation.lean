/-
# Literals wherever they stand

The literal of a text is one token, whatever stands behind it and whatever the tokens in front of
it were, as long as they do not call for a package name (`Literal.tokensFrom_write`).  It stands on
one line, for no control is written as it stands, and the first mark that is not escaped is the
closing one.
-/
import Idl.Proofs.Token.Escapes
import Idl.Proofs.Token.Partition
import Mathlib.Algebra.Group.Nat.Even

namespace Idl

/-! ### Reading on from a state -/

namespace Text

variable {ctx : Context} {l : Lexeme} {r s : Text}

/-- The tokens that are read from a state on: the context that the tokens so far have left, the
position that was come to, and the text that remains. -/
def tokensFrom (ctx : Context) (p : Position) (s : Text) : List Token :=
  (s.cutFrom ctx).ending.tokensAfter p (s.cutFrom ctx).lexemes

lemma tokens_eq_tokensFrom (s : Text) : s.tokens = tokensFrom .ordinary .start s := rfl

/-- With a lexeme its token is read, and reading goes on behind it. -/
lemma tokensFrom_of_lexeme (h : Cutting.step ctx s = .lexeme l r) (p : Position) :
    tokensFrom ctx p s = l.tokenAt p :: tokensFrom (ctx.next l.kind) (p.after l.text) r := by
  rw [tokensFrom, cutFrom_of_lexeme h, tokensAfter_cons]
  rfl

end Text

/-! ### Escaped marks -/

namespace Text

variable {c : CodePoint} {s t : Text}

/-- What stands behind the text is escaped: the text ends with an odd number of backslashes. -/
def Escapes (t : Text) : Prop := Odd (t.rtakeWhile (· = .scalar '\\')).length

/-- Every quotation mark in the text is escaped, and what stands behind the text is not. -/
structure MarksEscaped (t : Text) : Prop where
  inside : ∀ u w : Text, t = u ++ .scalar '"' :: w → Escapes u
  behind : ¬ Escapes t

lemma not_escapes_nil : ¬ Escapes [] := by
  intro h
  cases Nat.not_odd_zero h

lemma escapes_concat_iff : Escapes (t ++ [c]) ↔ c = .scalar '\\' ∧ ¬ Escapes t := by
  by_cases hc : c = .scalar '\\'
  · rw [Escapes, List.rtakeWhile_concat_pos _ _ _ (by simpa using hc), List.length_append,
      List.length_singleton, Nat.odd_add_one, ← Escapes, iff_true_intro hc, true_and]
  · rw [Escapes, List.rtakeWhile_concat_neg _ _ _ (by simpa using hc)]
    exact iff_of_false not_escapes_nil fun h => hc h.1

/-- A text in front makes no difference if it escapes nothing itself. -/
lemma escapes_append_iff (hs : ¬ Escapes s) (t : Text) : Escapes (s ++ t) ↔ Escapes t := by
  induction t using List.reverseRecOn with
  | nil =>
    rw [List.append_nil]
    exact iff_of_false hs not_escapes_nil
  | append_singleton t c ih =>
    rw [← List.append_assoc, escapes_concat_iff, escapes_concat_iff, ih]

lemma marksEscaped_nil : MarksEscaped [] where
  inside u w h := by simp at h
  behind := not_escapes_nil

/-- A code point that is neither a mark nor a backslash needs no escape. -/
lemma marksEscaped_point (hquote : c ≠ .scalar '"') (hbackslash : c ≠ .scalar '\\') :
    MarksEscaped [c] where
  inside u w h := by
    cases u with
    | nil => exact absurd (List.cons.inj h).1 hquote
    | cons d u => simp at h
  behind h := hbackslash ((escapes_concat_iff (t := [])).1 h).1

/-- A backslash escapes the code point behind it. -/
lemma marksEscaped_pair (c : CodePoint) : MarksEscaped [.scalar '\\', c] := by
  have hfirst : Escapes [.scalar '\\'] := (escapes_concat_iff (t := [])).2 ⟨rfl, not_escapes_nil⟩
  refine ⟨fun u w h => ?_, fun h => ?_⟩
  · rcases u with _ | ⟨d, _ | ⟨e, u⟩⟩
    · simp at h
    · rw [← (List.cons.inj h).1]
      exact hfirst
    · simp at h
  · exact ((escapes_concat_iff (t := [.scalar '\\'])).1 h).2 hfirst

lemma MarksEscaped.append (hs : MarksEscaped s) (ht : MarksEscaped t) : MarksEscaped (s ++ t) := by
  refine ⟨fun u w h => ?_, ?_⟩
  · rcases List.append_eq_append_iff.1 h with ⟨v, rfl, hv⟩ | ⟨v, hv, hw⟩
    · exact (escapes_append_iff hs.behind v).2 (ht.inside v w hv)
    · cases v with
      | nil =>
        rw [List.append_nil] at hv
        rw [← hv, ← s.append_nil, escapes_append_iff hs.behind]
        exact ht.inside [] w hw.symm
      | cons d v =>
        obtain ⟨rfl, -⟩ := List.cons.inj hw
        exact hs.inside u v hv
  · rw [escapes_append_iff hs.behind]
    exact ht.behind

end Text

/-! ### What literals are written with -/

namespace Literal

variable {c x : CodePoint}

lemma toNat_of_isHexDigit (h : c.isHexDigit) : 0x30 ≤ c.toNat ∧ c.toNat < 0x7F := by
  simp only [CodePoint.isHexDigit, CodePoint.hexValue?, CodePoint.isBetween, Bool.and_eq_true,
    decide_eq_true_eq, Char.reduceToNat] at h
  split_ifs at h
  all_goals first | omega | cases h

lemma marksEscaped_digit (h : c.isHexDigit) : Text.MarksEscaped [c] := by
  refine Text.marksEscaped_point ?_ ?_
  · rintro rfl
    exact absurd h (by decide)
  · rintro rfl
    exact absurd h (by decide)

lemma marksEscaped_writePoint (c : CodePoint) : Text.MarksEscaped (writePoint c) := by
  rcases writePoint_cases c with ⟨e, -, hwrite⟩ | ⟨h₁, h₂, hvalue, hwrite⟩ |
      ⟨hwrite, hquote, hbackslash, -⟩
  · rw [hwrite]
    exact Text.marksEscaped_pair e
  · have hdigits := isHexDigit_of_mem hvalue
    rw [hwrite]
    exact ((Text.marksEscaped_pair _).append (marksEscaped_digit (hdigits h₁ (by simp)))).append
      (marksEscaped_digit (hdigits h₂ (by simp)))
  · rw [hwrite]
    exact Text.marksEscaped_point hquote hbackslash

lemma marksEscaped_flatMap (value : Text) : Text.MarksEscaped (value.flatMap writePoint) := by
  induction value with
  | nil => exact Text.marksEscaped_nil
  | cons c value ih => exact (marksEscaped_writePoint c).append ih

/-- No control is written as it stands. -/
lemma toNat_of_mem_writePoint (h : x ∈ writePoint c) : 0x20 ≤ x.toNat ∧ x.toNat ≠ 0x7F := by
  have hbackslash : 0x20 ≤ (CodePoint.scalar '\\').toNat ∧
      (CodePoint.scalar '\\').toNat ≠ 0x7F := by decide
  rcases writePoint_cases c with ⟨e, he, hwrite⟩ | ⟨h₁, h₂, hvalue, hwrite⟩ |
      ⟨hwrite, -, -, hclear⟩
  · have hletters : ∀ p ∈ shortEscapes, 0x20 ≤ (CodePoint.scalar p.1).toNat ∧
        (CodePoint.scalar p.1).toNat ≠ 0x7F := by decide
    obtain ⟨p, hp, rfl, -⟩ := simpleEscape?_eq_some_iff.1 he
    rw [hwrite, List.mem_pair] at h
    rcases h with rfl | rfl
    · exact hbackslash
    · exact hletters p hp
  · rw [hwrite, List.mem_cons, List.mem_cons] at h
    rcases h with rfl | rfl | h
    · exact hbackslash
    · decide
    · have hdigit := toNat_of_isHexDigit (isHexDigit_of_mem hvalue x h)
      omega
  · rw [hwrite, List.mem_singleton] at h
    rw [h]
    exact hclear

lemma toNat_of_mem_write {value : Text} (h : x ∈ write value) :
    0x20 ≤ x.toNat ∧ x.toNat ≠ 0x7F := by
  have hmark : 0x20 ≤ (CodePoint.scalar '"').toNat ∧ (CodePoint.scalar '"').toNat ≠ 0x7F := by
    decide
  have hmarks {y : CodePoint} (hy : y ∈ Text.ofString "\"") : y = .scalar '"' :=
    List.mem_singleton.1 hy
  rw [write, List.mem_append, List.mem_append, List.mem_flatMap] at h
  rcases h with (h | ⟨c, -, h⟩) | h
  · rw [hmarks h]
    exact hmark
  · exact toNat_of_mem_writePoint h
  · rw [hmarks h]
    exact hmark

lemma break_notMem_write (value : Text) : .scalar '\n' ∉ write value := by
  intro h
  exact absurd (toNat_of_mem_write h).1 (by decide)

/-- A literal tells its text. -/
lemma write_injective : Function.Injective write := by
  intro v w h
  have hbody (v : Text) : readBody ((write v).tail) =
      .closed v (v.flatMap writePoint ++ [.scalar '"']) [] := readBody_write v []
  have hv := hbody v
  rw [h, hbody w] at hv
  exact (Body.closed.inj hv).1.symm

/-! ### Literals as tokens -/

/-- From any state in which no package name is called for, the literal of a text is read as one
token with that text for its value, and reading goes on behind it, on the same line.  It has no
controls in it, between its marks every mark is escaped, and no other text has the same one. -/
theorem tokensFrom_write (value : Text) :
    (∀ (ctx : Context) (p : Position) (r : Text), ctx ≠ .package →
      let q : Position := ⟨p.line, p.column + (write value).length⟩
      Cutting.step ctx (write value ++ r) = .lexeme ⟨[], .string, value, write value⟩ r ∧
      p.after (write value) = q ∧
      Text.tokensFrom ctx p (write value ++ r) =
        ⟨.string, value, .upTo p q⟩ :: Text.tokensFrom .ordinary q r) ∧
    (∀ c ∈ write value, 0x20 ≤ c.toNat ∧ c.toNat ≠ 0x7F) ∧
    (∃ body : Text, write value = .scalar '"' :: (body ++ [.scalar '"']) ∧ body.MarksEscaped) ∧
    ∀ value', write value' = write value → value' = value := by
  refine ⟨fun ctx p r hctx => ?_, fun c hc => toNat_of_mem_write hc,
    ⟨value.flatMap writePoint, rfl, marksEscaped_flatMap value⟩,
    fun value' h => write_injective h⟩
  have hstep := Text.step_literal hctx value r
  have hafter := Position.after_of_not_mem (p := p) (break_notMem_write value)
  refine ⟨hstep, hafter, ?_⟩
  rw [Text.tokensFrom_of_lexeme hstep]
  simp only [Lexeme.tokenAt, Lexeme.text, List.nil_append, hafter]
  rfl

/-- Escapes with what could continue them behind them: a digit behind the escape of the code point
zero, a letter that is a hexadecimal digit behind an escape by two digits, and a mark behind a
backslash. -/
theorem tokensFrom_write_awkward :
    let value : Text := ['\x00', '7', '\x1b', 'a', '\\', '"']
    Context.afterHeaderWord ≠ .package ∧
    write value = "\"\\07\\x1ba\\\\\\\"\"" ∧
    Text.tokensFrom .afterHeaderWord ⟨3, 5⟩ (write value ++ "1\"") =
      ⟨.string, value, ⟨⟨3, 5⟩, ⟨3, 18⟩⟩⟩ :: Text.tokensFrom .ordinary ⟨3, 19⟩ "1\"" := by
  intro value
  have hctx : Context.afterHeaderWord ≠ .package := by decide
  exact ⟨hctx, by decide, ((tokensFrom_write value).1 .afterHeaderWord ⟨3, 5⟩ "1\"" hctx).2.2⟩

end Literal

end Idl
