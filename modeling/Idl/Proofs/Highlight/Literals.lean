/-
# Literals when highlighting

Among the parameters of an annotation the machine passes names, signs of equality, literals and the
closing angle, with blanks between them.  Inside a literal it recognises every escape that a reader
of tokens knows, so it is back among the parameters exactly behind the closing mark
(`Highlight.exists_leads_literal`).  Comments are not known there.
-/
import Idl.Proofs.Highlight.Words

namespace Idl

namespace Highlight

/-- Whether a piece is part of a literal. -/
def Piece.isLiteral (p : Piece) : Bool := p.style = .string || p.style = .escape

variable {b : Option CodePoint} {body r t w value : Text} {c : CodePoint} {S : Stack}

/-! ### Inside a literal -/

/-- What the machine passes as text of a literal. -/
def isPlainPoint : CodePoint → Bool := noneOf ['"', '\\', '\n']

lemma isPlainPoint_iff : isPlainPoint c ↔
    c ≠ .scalar '"' ∧ c ≠ .scalar '\\' ∧ c ≠ .scalar '\n' := by
  simp [isPlainPoint, noneOf]

/-- Code points that stand for themselves are passed at once. -/
lemma leads_plainPoints (hw : ∀ c ∈ w, isPlainPoint c) (hne : w ≠ [])
    (hr : r.StopsAt isPlainPoint) :
    ∃ b', Leads ⟨.string :: S, b, w ++ r⟩ [⟨.string, w⟩] ⟨.string :: S, b', r⟩ := by
  obtain ⟨c, w, rfl⟩ := List.exists_cons_of_ne_nil hne
  have hc : c ≠ .scalar '\\' := (isPlainPoint_iff.1 (hw c (by simp))).2.1
  have hescapes : ∀ R ∈ stringRules.take 3, R.opens c = false := by
    simp [stringRules, plain, Rule.opens, Pattern.opens, Text.ofString, hc.symm]
  have hrun := recognise_run (b := b) .string .stay hw hne hr
  have hrule : recognise stringRules b (c :: w ++ r) = some ([⟨.string, c :: w⟩], r, .stay) := by
    have hsplit : stringRules = stringRules.take 3 ++ stringRules.drop 3 := rfl
    rw [hsplit, recognise_append, List.cons_append, recognise_eq_none_of_opens hescapes]
    exact recognise_of_some hrun
  exact ⟨_, leads_of_recognise (S := .string :: S) hrule⟩

/-- A backslash and one code point are an escape. -/
lemma leads_short {p : Char × Char} (hp : p ∈ Literal.shortEscapes) (r : Text) :
    ∃ b', Leads ⟨.string :: S, b, .scalar '\\' :: .scalar p.1 :: r⟩
      [⟨.escape, [.scalar '\\', .scalar p.1]⟩] ⟨.string :: S, b', r⟩ := by
  have hall : ∀ p ∈ Literal.shortEscapes, recognise stringRules b
      (.scalar '\\' :: .scalar p.1 :: r) =
        some ([⟨.escape, [.scalar '\\', .scalar p.1]⟩], r, .stay) := by
    simp only [Literal.shortEscapes, List.forall_mem_cons]
    exact ⟨rfl, rfl, rfl, rfl, rfl, rfl, rfl, rfl, rfl, rfl, rfl, by simp⟩
  exact ⟨_, leads_of_recognise (S := .string :: S) (hall p hp)⟩

/-- Two digits behind `\x` are an escape. -/
lemma leads_byte {h₁ h₂ : CodePoint} (hdigits : ∀ h ∈ [h₁, h₂], h.isHexDigit) (r : Text) :
    ∃ b', Leads ⟨.string :: S, b, .scalar '\\' :: .scalar 'x' :: h₁ :: h₂ :: r⟩
      [⟨.escape, [.scalar '\\', .scalar 'x', h₁, h₂]⟩] ⟨.string :: S, b', r⟩ := by
  have hrule : recognise stringRules b (.scalar '\\' :: .scalar 'x' :: h₁ :: h₂ :: r) =
      some ([⟨.escape, [.scalar '\\', .scalar 'x', h₁, h₂]⟩], r, .stay) := by
    refine recognise_of_some ?_
    simp only [List.forall_mem_cons] at hdigits
    simp [Rule.recognise, plain, cutParts, cutAll, Pattern.cut, Text.ofString, hdigits]
  exact ⟨_, leads_of_recognise (S := .string :: S) hrule⟩

/-- Four digits behind `\u` are an escape. -/
lemma leads_unit {h₁ h₂ h₃ h₄ : CodePoint} (hdigits : ∀ h ∈ [h₁, h₂, h₃, h₄], h.isHexDigit)
    (r : Text) :
    ∃ b', Leads ⟨.string :: S, b, .scalar '\\' :: .scalar 'u' :: h₁ :: h₂ :: h₃ :: h₄ :: r⟩
      [⟨.escape, [.scalar '\\', .scalar 'u', h₁, h₂, h₃, h₄]⟩] ⟨.string :: S, b', r⟩ := by
  have hrule : recognise stringRules b (.scalar '\\' :: .scalar 'u' :: h₁ :: h₂ :: h₃ :: h₄ :: r) =
      some ([⟨.escape, [.scalar '\\', .scalar 'u', h₁, h₂, h₃, h₄]⟩], r, .stay) := by
    refine (recognise_of_none rfl).trans (recognise_of_some ?_)
    simp only [List.forall_mem_cons] at hdigits
    simp [Rule.recognise, plain, cutParts, cutAll, Pattern.cut, Text.ofString, hdigits]
  exact ⟨_, leads_of_recognise (S := .string :: S) hrule⟩

/-- What is left of a body behind code points that stand for themselves is a body. -/
lemma exists_denotes_dropWhile (h : Literal.Denotes body value) :
    ∃ value', Literal.Denotes (body.dropWhile isPlainPoint) value' := by
  induction h with
  | nil => exact ⟨[], .nil⟩
  | point hquote hbreak hbackslash _ ih =>
    rwa [List.dropWhile_cons_of_pos (isPlainPoint_iff.2 ⟨hquote, hbackslash, hbreak⟩)]
  | short h hbody => exact ⟨_, .short h hbody⟩
  | byte h hbody => exact ⟨_, .byte h hbody⟩
  | unit h hbody => exact ⟨_, .unit h hbody⟩

lemma leads_closing (r : Text) : ∃ b',
    Leads ⟨.string :: S, b, .scalar '"' :: r⟩ [⟨.string, [.scalar '"']⟩] ⟨S, b', r⟩ := by
  have hrule : recognise stringRules b (.scalar '"' :: r) =
      some ([⟨.string, [.scalar '"']⟩], r, .pop) := by
    rw [recognise_filter]
    exact recognise_of_some (recognise_sign rfl r)
  exact ⟨_, leads_of_recognise (S := .string :: S) hrule⟩

/-- The body of a literal and the closing mark are passed. -/
lemma exists_leads_body (b : Option CodePoint) {body value : Text} (h : Literal.Denotes body value)
    (r : Text) : ∃ ps b', Leads ⟨.string :: S, b, body ++ .scalar '"' :: r⟩ ps ⟨S, b', r⟩ ∧
      textOf ps = body ++ [.scalar '"'] ∧ ∀ p ∈ ps, p.isLiteral := by
  -- the machine is inside the body again behind a piece of it
  have hcons {p : Piece} {b₁ : Option CodePoint} {body' value' : Text} (hp : p.isLiteral)
      (hsplit : body = p.text ++ body') (hne : p.text ≠ []) (hbody : Literal.Denotes body' value')
      (hleads : Leads ⟨.string :: S, b, p.text ++ (body' ++ .scalar '"' :: r)⟩ [p]
        ⟨.string :: S, b₁, body' ++ .scalar '"' :: r⟩) :
      ∃ ps b', Leads ⟨.string :: S, b, body ++ .scalar '"' :: r⟩ ps ⟨S, b', r⟩ ∧
        textOf ps = body ++ [.scalar '"'] ∧ ∀ p ∈ ps, p.isLiteral := by
    have hlt : body'.length < body.length := by
      have hpos := List.length_pos_iff.2 hne
      rw [hsplit, List.length_append]
      omega
    obtain ⟨ps, b', hmore, htext, hps⟩ := exists_leads_body b₁ hbody r
    refine ⟨p :: ps, b', ?_, ?_, List.forall_mem_cons.2 ⟨hp, hps⟩⟩
    · rw [hsplit, List.append_assoc]
      exact hleads.trans hmore
    · rw [hsplit, List.append_assoc, ← htext]
      rfl
  cases h with
  | nil =>
    obtain ⟨b', hleads⟩ := leads_closing (b := b) (S := S) r
    exact ⟨_, b', hleads, rfl, by simp [Piece.isLiteral]⟩
  | @point c body value hquote hbreak hbackslash hbody =>
    obtain ⟨value', hrest⟩ := exists_denotes_dropWhile (.point hquote hbreak hbackslash hbody)
    have hsplit : c :: body = (c :: body).takeWhile isPlainPoint ++
        (c :: body).dropWhile isPlainPoint := List.takeWhile_append_dropWhile.symm
    have hw : ∀ d ∈ (c :: body).takeWhile isPlainPoint, isPlainPoint d :=
      fun d => (List.all_eq_true.1 List.all_takeWhile) d
    have hne : (c :: body).takeWhile isPlainPoint ≠ [] := by
      rw [List.takeWhile_cons_of_pos (isPlainPoint_iff.2 ⟨hquote, hbackslash, hbreak⟩)]
      exact List.cons_ne_nil _ _
    have hstop : Text.StopsAt isPlainPoint
        ((c :: body).dropWhile isPlainPoint ++ .scalar '"' :: r) :=
      (stopsAt_dropWhile _ _).append (Text.stopsAt_cons (by decide) r)
    obtain ⟨b₁, hleads⟩ := leads_plainPoints (b := b) (S := S) hw hne hstop
    exact hcons (p := ⟨.string, _⟩) rfl hsplit hne hrest hleads
  | short h hbody =>
    obtain ⟨b₁, hleads⟩ := leads_short (b := b) (S := S) h _
    exact hcons (p := ⟨.escape, [_, _]⟩) rfl rfl (by simp) hbody hleads
  | byte h hbody =>
    obtain ⟨b₁, hleads⟩ := leads_byte (b := b) (S := S) (Literal.isHexDigit_of_mem h) _
    exact hcons (p := ⟨.escape, [_, _, _, _]⟩) rfl rfl (by simp) hbody hleads
  | unit h hbody =>
    obtain ⟨b₁, hleads⟩ := leads_unit (b := b) (S := S) (Literal.isHexDigit_of_mem h) _
    exact hcons (p := ⟨.escape, [_, _, _, _, _, _]⟩) rfl rfl (by simp) hbody hleads
termination_by body.length

/-! ### Among parameters -/

/-- A literal is passed, and behind it the machine is among the parameters again. -/
lemma exists_leads_literal (b : Option CodePoint) (h : Literal.Denotes body value) (r : Text) :
    ∃ ps b', Leads ⟨[.parameters], b, .scalar '"' :: (body ++ [.scalar '"']) ++ r⟩ ps
      ⟨[.parameters], b', r⟩ ∧ textOf ps = .scalar '"' :: (body ++ [.scalar '"']) ∧
        ∀ p ∈ ps, p.isLiteral := by
  have hrule : recognise parameterRules b (.scalar '"' :: (body ++ .scalar '"' :: r)) =
      some ([⟨.string, [.scalar '"']⟩], body ++ .scalar '"' :: r, .push .string) := by
    rw [recognise_filter]
    exact recognise_of_some (recognise_sign rfl _)
  have hopen := leads_of_recognise (S := [.parameters]) hrule
  obtain ⟨ps, b', hleads, htext, hps⟩ :=
    exists_leads_body (S := [.parameters]) (some (.scalar '"')) h r
  refine ⟨⟨.string, [.scalar '"']⟩ :: ps, b', ?_, ?_, List.forall_mem_cons.2 ⟨rfl, hps⟩⟩
  · simpa using hopen.trans hleads
  · rw [← htext]
    rfl

lemma leads_assign (r : Text) : ∃ b', Leads ⟨[.parameters], b, .scalar '=' :: r⟩
    [⟨.operator, [.scalar '=']⟩] ⟨[.parameters], b', r⟩ := by
  have hrule : recognise parameterRules b (.scalar '=' :: r) =
      some ([⟨.operator, [.scalar '=']⟩], r, .stay) := by
    rw [recognise_filter]
    exact recognise_of_some (recognise_sign rfl r)
  exact ⟨_, leads_of_recognise (S := [.parameters]) hrule⟩

/-- The closing angle leads out of the annotation. -/
lemma leads_closeAngle (r : Text) : ∃ b', Leads ⟨[.parameters], b, .scalar '>' :: r⟩
    [⟨.punctuation, [.scalar '>']⟩] ⟨[], b', r⟩ := by
  have hrule : recognise parameterRules b (.scalar '>' :: r) =
      some ([⟨.punctuation, [.scalar '>']⟩], r, .pop) := by
    rw [recognise_filter]
    exact recognise_of_some (recognise_sign rfl r)
  exact ⟨_, leads_of_recognise (S := [.parameters]) hrule⟩

/-- The name of a parameter. -/
lemma leads_parameter (hc : isSmall c) (ht : ∀ x ∈ t, isNamePoint x) (hr : r.StopsAt isNamePoint) :
    ∃ b', Leads ⟨[.parameters], b, c :: t ++ r⟩ [⟨.attributeName, c :: t⟩]
      ⟨[.parameters], b', r⟩ := by
  have hpoint := isNamePoint_of_isSmall hc
  have hblank := CodePoint.not_isBlank_of_isAlphanumeric (isAlphanumeric_of_isNamePoint hpoint)
  have hangle : c ≠ .scalar '>' := ne_of_isNamePoint hpoint (by decide)
  have hfront : ∀ R ∈ parameterRules.take 2, R.opens c = false := by
    simp [parameterRules, plain, sign, anyOf, someBlanks, Rule.opens, Pattern.opens, hblank, hangle]
  have hname : (plain [smallName .attributeName] .stay).recognise b (c :: t ++ r) =
      some ([⟨.attributeName, c :: t⟩], r) := by
    simp [Rule.recognise, plain, smallName, cutParts_name hc ht hr]
  have hrule : recognise parameterRules b (c :: t ++ r) =
      some ([⟨.attributeName, c :: t⟩], r, .stay) := by
    have hsplit : parameterRules = parameterRules.take 2 ++ parameterRules.drop 2 := rfl
    rw [hsplit, recognise_append, List.cons_append, recognise_eq_none_of_opens hfront]
    exact recognise_of_some hname
  exact ⟨_, leads_of_recognise (S := [.parameters]) hrule⟩

/-- No comment is known among parameters. -/
lemma leads_slash (r : Text) : Leads ⟨[.parameters], b, .scalar '/' :: r⟩
    [⟨.stray, [.scalar '/']⟩] ⟨[.parameters], some (.scalar '/'), r⟩ := by
  have hrule : recognise parameterRules b (.scalar '/' :: r) = none := by
    rw [recognise_filter]
    rfl
  exact leads_stray (S := [.parameters]) hrule (by decide)

end Highlight

end Idl
