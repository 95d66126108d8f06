/-
# The sorts of names in a text

Whatever a text holds, a token that is called a name or a package name is one: the value of each
token of `Text.tokens` is of the sort that its kind tells (`Text.sound_of_mem_tokens`).
-/
import Idl.Proofs.Token.Words

namespace Idl

/-- The value of the word is of the sort that its kind tells. -/
def Word.Sound : Word → Prop
  | (.lowerName, x) => x.IsLowerName
  | (.upperName, x) => x.IsUpperName
  | (.packageName, x) => x.IsPackageName
  | _ => True

namespace Lexeme

variable {ctx : Context} {c : CodePoint} {r : Text} {k : TokenKind} {value spelling rest : Text}

lemma sound_of_readPackage {s : Text} (h : readPackage s = .token k value spelling rest) :
    Word.Sound (k, value) := by
  unfold readPackage at h
  simp only at h
  split at h
  · cases h
  split at h
  · cases h
  next hempty =>
  cases h
  intro segment hsegment
  refine ⟨?_, fun x hx => ?_⟩
  · rintro rfl
    exact hempty hsegment
  · obtain ⟨hmem, hdot⟩ := Text.mem_of_mem_pieces hsegment hx
    have hpoint : x.isPackagePoint := (List.all_eq_true.1 List.all_takeWhile) x hmem
    simpa [CodePoint.isPackagePoint, hdot] using hpoint

lemma sound_of_readWord (hletter : c.isLetter) (h : readWord c r = .token k value spelling rest) :
    Word.Sound (k, value) := by
  have htail : ∀ x ∈ r.takeWhile CodePoint.isAlphanumeric, x.isAlphanumeric :=
    fun x => (List.all_eq_true.1 List.all_takeWhile) x
  unfold readWord at h
  split at h
  · next hcased =>
    cases h
    rcases hword : Keyword.ofText? (c :: r.takeWhile CodePoint.isAlphanumeric) with _ | w
    · by_cases hupper : c.isUppercase
      · have hkind : wordKind c (c :: r.takeWhile CodePoint.isAlphanumeric) = .upperName := by
          simp only [wordKind, hword, if_pos hupper]
        rw [hkind]
        exact ⟨hletter, hupper, htail, hword⟩
      · have hkind : wordKind c (c :: r.takeWhile CodePoint.isAlphanumeric) = .lowerName := by
          simp only [wordKind, hword, if_neg hupper]
        have hlower : c.isLowercase := by simpa [hupper] using hcased
        rw [hkind]
        exact ⟨hletter, hlower, htail, hword⟩
    · have hkind : wordKind c (c :: r.takeWhile CodePoint.isAlphanumeric) = .keyword w := by
        simp only [wordKind, hword]
      rw [hkind]
      trivial
  · cases h

lemma sound_of_read (h : read ctx c r = .token k value spelling rest) : Word.Sound (k, value) := by
  unfold read at h
  split at h
  · exact sound_of_readPackage h
  split at h
  · unfold readString at h
    split at h <;> cases h
    trivial
  split at h
  · next hletter => exact sound_of_readWord hletter h
  split at h <;> cases h
  trivial

lemma sound_of_step {s : Text} {l : Lexeme} (h : Cutting.step ctx s = .lexeme l rest) :
    l.word.Sound := by
  unfold Cutting.step at h
  split at h
  · cases h
  · cases h
  · split at h
    · next hread =>
      cases h
      exact sound_of_read hread
    · cases h

end Lexeme

/-- Each step of the cutting adds a lexeme of the right sort. -/
lemma Text.sound_of_mem_cutFrom (ctx : Context) (s : Text) :
    ∀ l ∈ (s.cutFrom ctx).lexemes, l.word.Sound := by
  fun_induction Text.cutFrom ctx s with
  | case1 ctx s e h => simp
  | case2 ctx s l rest h k ih =>
    intro l' hl'
    rcases List.mem_cons.1 hl' with rfl | hl'
    · exact Lexeme.sound_of_step h
    · exact ih l' hl'

lemma Ending.sound_of_mem_tokens (e : Ending) (p : Position) : ∀ t ∈ e.tokens p, t.word.Sound := by
  intro t ht
  cases e with
  | clean gap =>
    obtain rfl := List.mem_singleton.1 ht
    trivial
  | fault f before read rest =>
    rcases List.mem_cons.1 ht with rfl | ht
    · trivial
    · obtain rfl := List.mem_singleton.1 ht
      trivial

/-- Every token of a text is of the sort that its kind tells. -/
lemma Text.sound_of_mem_tokens (s : Text) : ∀ t ∈ s.tokens, t.word.Sound := by
  obtain ⟨us, q, hus, hwords⟩ := tokensAfter_eq s.cut.ending Position.start s.cut.lexemes
  intro t ht
  rw [tokens, Cutting.tokens, hus, List.mem_append] at ht
  rcases ht with ht | ht
  · have hword : t.word ∈ s.cut.lexemes.map Lexeme.word := hwords ▸ List.mem_map_of_mem ht
    obtain ⟨l, hl, heq⟩ := List.mem_map.1 hword
    exact heq ▸ sound_of_mem_cutFrom .ordinary s l hl
  · exact s.cut.ending.sound_of_mem_tokens q t ht

end Idl
