/-
# Rows of kinds

What the tokens of a module look like from one to the next, without the tree: the lines of the
header and the imports (`TokenKind.IsEntry`), and behind them a row in which an annotation is a part
of its own, `type` has a name behind it, a field name has a colon behind it, and an opening angle
that opens no annotation has a type behind it (`TokenKind.BodyRow`).  The tokens of every module are
such a row (`Module.ContentSpelledBy.exists_rows`).
-/
import Idl.Proofs.Grammar.Kinds

namespace Idl

open Phrase

namespace TokenKind

/-- The kinds of tokens that a type begins with. -/
def isTypeHead : TokenKind → Bool
  | .keyword w => w ∈ [.boolean, .int, .decimal, .string, .array, .maybe]
  | .upperName => true
  | _ => false

/-- The kinds of tokens, outside annotations, of which nothing is said about the next token. -/
def standsAlone : TokenKind → Bool
  | .keyword w => w ∈ [.wrap, .boolean, .int, .decimal, .string, .array, .maybe]
  | .mark m => m ∉ [.openAngle, .assign]
  | .upperName => true
  | _ => false

/-- A row of parameters. -/
inductive ParamRow : List TokenKind → Prop
  /-- No parameter at all. -/
  | nil : ParamRow []
  /-- A name. -/
  | plain {ks : List TokenKind} (h : ParamRow ks) : ParamRow (.lowerName :: ks)
  /-- A name with a text. -/
  | valued {ks : List TokenKind} (h : ParamRow ks) :
      ParamRow (.lowerName :: .mark .assign :: .string :: ks)

/-- A row of annotations and declarations, or a part of one. -/
inductive BodyRow : List TokenKind → Prop
  /-- No token at all. -/
  | nil : BodyRow []
  /-- A token of which nothing is said about the next one. -/
  | alone {k : TokenKind} {ks : List TokenKind} (hk : k.standsAlone) (h : BodyRow ks) :
      BodyRow (k :: ks)
  /-- The beginning of a declaration. -/
  | declared {ks : List TokenKind} (h : BodyRow ks) : BodyRow (.keyword .type :: .upperName :: ks)
  /-- The beginning of a field. -/
  | field {ks : List TokenKind} (h : BodyRow ks) : BodyRow (.lowerName :: .mark .colon :: ks)
  /-- An opening angle in front of a type. -/
  | argument {k : TokenKind} {ks : List TokenKind} (hk : k.isTypeHead) (h : BodyRow (k :: ks)) :
      BodyRow (.mark .openAngle :: k :: ks)
  /-- An annotation. -/
  | annotated {ps ks : List TokenKind} (hps : ParamRow ps) (h : BodyRow ks) :
      BodyRow (.mark .openAngle :: .lowerName :: (ps ++ .mark .closeAngle :: ks))

/-- A line of the header, or an import. -/
def IsEntry (ks : List TokenKind) : Prop :=
  ks = [.keyword .imports, .packageName] ∨
    ∃ w ∈ [Keyword.scala, Keyword.purs], ks = [.keyword w, .mark .colon, .packageName]

variable {k : TokenKind} {ks ks' : List TokenKind}

lemma eq_of_isTypeHead (h : k.isTypeHead) : k = .upperName ∨
    ∃ w ∈ [Keyword.boolean, .int, .decimal, .string, .array, .maybe], k = .keyword w := by
  cases k with
  | keyword w => exact .inr ⟨w, by simpa [isTypeHead] using h, rfl⟩
  | upperName => exact .inl rfl
  | _ => cases h

lemma ne_of_standsAlone {k' : TokenKind} (h : k.standsAlone) (h' : k'.standsAlone = false) :
    k ≠ k' := by
  rintro rfl
  rw [h] at h'
  cases h'

lemma ParamRow.append (h : ParamRow ks) (h' : ParamRow ks') : ParamRow (ks ++ ks') := by
  induction h with
  | nil => exact h'
  | plain _ ih => exact .plain ih
  | valued _ ih => exact .valued ih

/-- Parameters are made of names, signs of equality and literals. -/
lemma ParamRow.kind_of_mem (h : ParamRow ks) (hk : k ∈ ks) :
    k = .lowerName ∨ k = .mark .assign ∨ k = .string := by
  induction h with
  | nil => cases hk
  | plain _ ih =>
    rcases List.mem_cons.1 hk with rfl | hk
    · exact .inl rfl
    · exact ih hk
  | valued _ ih =>
    simp only [List.mem_cons] at hk
    rcases hk with rfl | rfl | rfl | hk
    · exact .inl rfl
    · exact .inr (.inl rfl)
    · exact .inr (.inr rfl)
    · exact ih hk

lemma BodyRow.append (h : BodyRow ks) (h' : BodyRow ks') : BodyRow (ks ++ ks') := by
  induction h with
  | nil => exact h'
  | alone hk _ ih => exact .alone hk ih
  | declared _ ih => exact .declared ih
  | field _ ih => exact .field ih
  | argument hk _ ih => exact .argument hk ih
  | annotated hps _ ih => simpa using BodyRow.annotated hps ih

lemma IsEntry.ne_openAngle (h : IsEntry ks) : ∀ k ∈ ks, k ≠ .mark .openAngle := by
  rcases h with rfl | ⟨w, -, rfl⟩ <;> simp

/-- There is a row behind a reserved word in front. -/
lemma BodyRow.of_keyword {w : Keyword} (h : BodyRow (.keyword w :: ks)) : BodyRow ks := by
  cases h with
  | alone _ h => exact h
  | declared h => exact .alone rfl h

/-- There are no packages in a row. -/
lemma BodyRow.ne_packageName (h : BodyRow ks) : ∀ k ∈ ks, k ≠ .packageName := by
  induction h with
  | nil => simp
  | alone hk _ ih => exact List.forall_mem_cons.2 ⟨ne_of_standsAlone hk rfl, ih⟩
  | declared _ ih | field _ ih => simpa using ih
  | argument _ _ ih => exact List.forall_mem_cons.2 ⟨nofun, ih⟩
  | annotated hps _ ih =>
    simp only [List.forall_mem_cons, List.forall_mem_append]
    refine ⟨nofun, nofun, fun k hk => ?_, nofun, ih⟩
    rcases hps.kind_of_mem hk with rfl | rfl | rfl <;> exact nofun

end TokenKind

open TokenKind

section

variable {α : Type} {G : Phrase α} {as : List α} {ts : List Token}

lemma Phrase.Many.bodyRow (h : Many G as ts) (hG : ∀ a us, G a us → BodyRow (us.map Token.kind)) :
    BodyRow (ts.map Token.kind) := by
  induction h with
  | nil => exact .nil
  | cons first _ ih =>
    rw [List.map_append]
    exact (hG _ _ first).append ih

/-- A row behind a token of which nothing is said about the next one. -/
lemma Phrase.bodyRow_of_behind {k : TokenKind} {a : α} (hk : k.standsAlone)
    (hG : ∀ a us, G a us → BodyRow (us.map Token.kind)) (h : behind k G a ts) :
    BodyRow (ts.map Token.kind) := by
  obtain ⟨t, us, rfl, rfl, ha⟩ := h
  exact .alone hk (hG a us ha)

lemma Phrase.bodyRow_of_word {k : TokenKind} {x : Text} (hk : k.standsAlone) (h : word k x ts) :
    BodyRow (ts.map Token.kind) := by
  obtain ⟨t, rfl, rfl, -⟩ := h
  exact .alone hk .nil

lemma Param.SpelledBy.paramRow {p : Param} (h : p.SpelledBy ts) : ParamRow (ts.map Token.kind) := by
  rcases h with hname | ⟨hname, hassign, hvalue⟩
  · simpa [hname] using ParamRow.plain .nil
  · simpa [hname, hassign, hvalue] using ParamRow.valued .nil

lemma paramRow_of_many {ps : List Param} (h : Many Param.SpelledBy ps ts) :
    ParamRow (ts.map Token.kind) := by
  induction h with
  | nil => exact .nil
  | cons first _ ih =>
    rw [List.map_append]
    exact first.paramRow.append ih

lemma Annotation.SpelledBy.bodyRow {a : Annotation} (h : a.SpelledBy ts) :
    BodyRow (ts.map Token.kind) := by
  obtain ⟨hopening, hname, hparams, hclosing⟩ := h
  simpa [hopening, hname, hclosing] using BodyRow.annotated (paramRow_of_many hparams) .nil

/-- A type begins with a token of its own kind. -/
lemma TypeExpr.SpelledBy.exists_bodyRow {e : TypeExpr} (h : e.SpelledBy ts) : ∃ k ks,
    ts.map Token.kind = k :: ks ∧ k.isTypeHead ∧ BodyRow (k :: ks) := by
  have hinner {head opening closing : Token} {w : Keyword} {ts : List Token}
      (hw : w = .array ∨ w = .maybe) (hhead : head.kind = .keyword w)
      (hopening : opening.kind = .mark .openAngle) (hclosing : closing.kind = .mark .closeAngle)
      (ih : ∃ k ks, ts.map Token.kind = k :: ks ∧ k.isTypeHead ∧ BodyRow (k :: ks)) :
      ∃ k ks, (head :: opening :: ts ++ [closing]).map Token.kind = k :: ks ∧ k.isTypeHead ∧
        BodyRow (k :: ks) := by
    obtain ⟨k, ks, hts, hk, hrow⟩ := ih
    have hclosed : BodyRow (k :: (ks ++ [.mark .closeAngle])) :=
      hrow.append (.alone rfl .nil)
    refine ⟨.keyword w, .mark .openAngle :: k :: (ks ++ [.mark .closeAngle]), ?_, ?_, ?_⟩
    · simp [hhead, hopening, hclosing, hts]
    · rcases hw with rfl | rfl <;> rfl
    · refine .alone ?_ (.argument hk hclosed)
      rcases hw with rfl | rfl <;> rfl
  induction h with
  | @primitive t w p hword hspelling =>
    have hw : (TokenKind.keyword w).isTypeHead ∧ (TokenKind.keyword w).standsAlone := by
      revert hspelling
      cases w <;> cases p <;> decide
    exact ⟨t.kind, [], rfl, hword ▸ hw.1, .alone (hword ▸ hw.2) .nil⟩
  | @reference first more segments q name ts hfirst hmore =>
    have hmore := hmore.bodyRow fun _ _ =>
      bodyRow_of_behind (k := .mark .dot) rfl fun _ _ => bodyRow_of_word (k := .upperName) rfl
    exact ⟨.upperName, _, by rw [List.map_cons, hfirst], rfl, .alone rfl hmore⟩
  | array hhead hopening _ hclosing ih => exact hinner (.inl rfl) hhead hopening hclosing ih
  | maybe hhead hopening _ hclosing ih => exact hinner (.inr rfl) hhead hopening hclosing ih

lemma TypeExpr.SpelledBy.bodyRow {e : TypeExpr} (h : e.SpelledBy ts) :
    BodyRow (ts.map Token.kind) := by
  obtain ⟨k, ks, hts, -, hrow⟩ := h.exists_bodyRow
  rwa [hts]

lemma Field.SpelledBy.bodyRow {f : Field} (h : f.SpelledBy ts) : BodyRow (ts.map Token.kind) := by
  obtain ⟨hname, hcolon, htype, hnotes⟩ := h
  have hnotes := hnotes.bodyRow fun _ _ => Annotation.SpelledBy.bodyRow
  simpa [hname, hcolon] using BodyRow.field (htype.bodyRow.append hnotes)

lemma Body.SpelledBy.bodyRow {b : Body} (h : b.SpelledBy ts) : BodyRow (ts.map Token.kind) := by
  rcases h with htype | ⟨hhead, htype⟩ | ⟨hopening, hclosing⟩ |
    ⟨hopening, hfield, hfields, hclosing⟩ | ⟨hopening, hfirst, hvariants, hclosing⟩
  · exact htype.bodyRow
  · simpa [hhead] using BodyRow.alone (k := .keyword .wrap) rfl htype.bodyRow
  · simpa [hopening, hclosing] using
      BodyRow.alone (k := .mark .openBrace) rfl (.alone (k := .mark .closeBrace) rfl .nil)
  · have hfields := hfields.bodyRow fun _ _ =>
      bodyRow_of_behind (k := .mark .comma) rfl fun _ _ => Field.SpelledBy.bodyRow
    simpa [hopening, hclosing] using BodyRow.alone (k := .mark .openBrace) rfl
      (hfield.bodyRow.append (hfields.append (.alone (k := .mark .closeBrace) rfl .nil)))
  · have hvariants := hvariants.bodyRow fun _ _ =>
      bodyRow_of_behind (k := .mark .pipe) rfl fun _ _ => bodyRow_of_word (k := .upperName) rfl
    simpa [hopening, hfirst, hclosing] using BodyRow.alone (k := .mark .openBracket) rfl
      (.alone (k := .upperName) rfl
        (hvariants.append (.alone (k := .mark .closeBracket) rfl .nil)))

lemma Declaration.SpelledBy.bodyRow {d : Declaration} (h : d.SpelledBy ts) :
    BodyRow (ts.map Token.kind) := by
  obtain ⟨hhead, hname, hcolon, hbody, hnotes⟩ := h
  have hnotes := hnotes.bodyRow fun _ _ => Annotation.SpelledBy.bodyRow
  simpa [hhead, hname, hcolon] using
    BodyRow.declared (.alone (k := .mark .colon) rfl (hbody.bodyRow.append hnotes))

lemma exists_entries {imports : List Text}
    (h : Many (behind (.keyword .imports) (word .packageName)) imports ts) :
    ∃ es : List (List TokenKind), ts.map Token.kind = es.flatten ∧ ∀ e ∈ es, IsEntry e := by
  induction h with
  | nil => exact ⟨[], rfl, by simp⟩
  | cons first _ ih =>
    obtain ⟨t, us, rfl, ht, t', rfl, ht', -⟩ := first
    obtain ⟨es, hes, hentry⟩ := ih
    exact ⟨[.keyword .imports, .packageName] :: es, by simp [ht, ht', hes],
      List.forall_mem_cons.2 ⟨.inl rfl, hentry⟩⟩

/-- A repetition begins with its first part, if there is any. -/
lemma Phrase.Many.head_kind {p : TokenKind → Prop} (h : Many G as ts)
    (hG : ∀ a us, G a us → us ≠ [] ∧ ∀ k ∈ (us.map Token.kind).head?, p k) :
    ∀ k ∈ (ts.map Token.kind).head?, p k := by
  cases h with
  | nil => simp
  | cons first more =>
    obtain ⟨hne, hhead⟩ := hG _ _ first
    obtain ⟨t, us, rfl⟩ := List.exists_cons_of_ne_nil hne
    exact hhead

/-- The tokens of a module are entries and a row behind them, which begins with an annotation or a
declaration. -/
lemma Module.ContentSpelledBy.exists_rows {m : Module} (h : m.ContentSpelledBy ts) :
    ∃ (es : List (List TokenKind)) (ks : List TokenKind),
      ts.map Token.kind = es.flatten ++ ks ∧ (∀ e ∈ es, IsEntry e) ∧ BodyRow ks ∧
        ∀ k ∈ ks.head?, k = .mark .openAngle ∨ k = .keyword .type := by
  obtain ⟨⟨hscala, hscalaColon, hscalaPackage⟩, ⟨hpurs, hpursColon, hpursPackage⟩, himports, hnotes,
    hdeclarations⟩ := h
  obtain ⟨es, hes, hentry⟩ := exists_entries himports
  have hnotesRow := hnotes.bodyRow fun _ _ => Annotation.SpelledBy.bodyRow
  have hdeclarationsRow := hdeclarations.bodyRow fun _ _ => Declaration.SpelledBy.bodyRow
  have hnotesHead := hnotes.head_kind (p := (· = .mark .openAngle)) fun _ _ h => by
    obtain ⟨hopening, -, -, -⟩ := h
    simp [hopening]
  have hdeclarationsHead := hdeclarations.head_kind (p := (· = .keyword .type)) fun _ _ h => by
    obtain ⟨hhead, -, -, -, -⟩ := h
    simp [hhead]
  refine ⟨[.keyword .scala, .mark .colon, .packageName] ::
    [.keyword .purs, .mark .colon, .packageName] :: es, _, ?_, ?_,
      hnotesRow.append hdeclarationsRow, ?_⟩
  · simp [hscala, hscalaColon, hscalaPackage, hpurs, hpursColon, hpursPackage, hes]
  · refine List.forall_mem_cons.2 ⟨.inr ⟨.scala, by decide, rfl⟩, ?_⟩
    exact List.forall_mem_cons.2 ⟨.inr ⟨.purs, by decide, rfl⟩, hentry⟩
  · intro k hk
    rw [List.head?_append, Option.mem_def, Option.or_eq_some_iff] at hk
    exact hk.imp (hnotesHead k) fun hk => hdeclarationsHead k hk.2

end

end Idl
