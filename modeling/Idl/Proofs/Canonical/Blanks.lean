/-
# What stands between the tokens of a canonical text

Outside its literals a canonical text holds neither slashes nor quotation marks
(`Module.sheltered_render`).  So no comment begins in it, and there are only blanks between its
tokens and behind the last one (`Module.isBlank_of_cut_render`).
-/
import Idl.Proofs.Canonical.Words
import Idl.Proofs.Token.Layout

namespace Idl

/-- Whether a code point begins neither a comment nor a literal. -/
def CodePoint.isHarmless (c : CodePoint) : Bool := c ≠ '/' && c ≠ '"'

/-- Slashes and quotation marks stand in canonical literals only. -/
inductive Text.Sheltered : Text → Prop
  /-- The empty text. -/
  | nil : Sheltered []
  /-- A code point of another sort. -/
  | point {c : CodePoint} {t : Text} (hc : c.isHarmless) (h : Sheltered t) : Sheltered (c :: t)
  /-- The literal of a value. -/
  | literal (value : Text) {t : Text} (h : Sheltered t) : Sheltered (Literal.write value ++ t)

variable {c : CodePoint} {ctx : Context} {form : Formatter} {l : Lexeme} {ls : List Lexeme}
  {m : Module} {last r sep t u w : Text} {ts : List Text}

namespace Text

/-! ### Putting texts together -/

lemma sheltered_of_all (h : ∀ c ∈ t, c.isHarmless) : t.Sheltered := by
  induction t with
  | nil => exact .nil
  | cons c t ih =>
    obtain ⟨hc, ht⟩ := List.forall_mem_cons.1 h
    exact .point hc (ih ht)

lemma Sheltered.append (ht : t.Sheltered) (hu : u.Sheltered) : (t ++ u).Sheltered := by
  induction ht with
  | nil => exact hu
  | point hc _ ih => exact .point hc ih
  | literal value _ ih =>
    rw [List.append_assoc]
    exact .literal value ih

lemma sheltered_flatMap {α : Type} {as : List α} {f : α → Text} (h : ∀ a ∈ as, (f a).Sheltered) :
    Sheltered (as.flatMap f) := by
  induction as with
  | nil => exact .nil
  | cons a as ih =>
    obtain ⟨ha, has⟩ := List.forall_mem_cons.1 h
    exact ha.append (ih has)

lemma sheltered_join (hsep : sep.Sheltered) (h : ∀ t ∈ ts, t.Sheltered) :
    (join sep ts).Sheltered := by
  cases ts with
  | nil => exact .nil
  | cons t ts =>
    obtain ⟨ht, hts⟩ := List.forall_mem_cons.1 h
    rw [join_cons]
    exact ht.append (sheltered_flatMap fun u hu => hsep.append (hts u hu))

lemma sheltered_write (value : Text) : (Literal.write value).Sheltered := by
  simpa using Sheltered.literal value .nil

/-! ### Names -/

lemma isHarmless_of_isPackagePoint (h : c.isPackagePoint) : c.isHarmless := by
  have hslash : c ≠ .scalar '/' := by rintro rfl; exact absurd h (by decide)
  have hquote : c ≠ .scalar '"' := by rintro rfl; exact absurd h (by decide)
  simp [CodePoint.isHarmless, hslash, hquote]

lemma IsPackageName.sheltered (h : t.IsPackageName) : t.Sheltered :=
  sheltered_of_all fun c hc => isHarmless_of_isPackagePoint (h.isPackagePoint c hc)

lemma IsName.sheltered {start : CodePoint → Bool} (h : t.IsName start) : t.Sheltered :=
  sheltered_of_all fun c hc =>
    isHarmless_of_isPackagePoint (by simp [CodePoint.isPackagePoint, h.isAlphanumeric c hc])

lemma IsLowerName.sheltered (h : t.IsLowerName) : t.Sheltered := IsName.sheltered h

lemma IsUpperName.sheltered (h : t.IsUpperName) : t.Sheltered := IsName.sheltered h

end Text

open Text

/-! ### Parts of a module -/

lemma Param.sheltered_render {p : Param} (h : p.WellFormed) : p.render.Sheltered := by
  have hname := IsLowerName.sheltered h
  unfold render
  split
  · exact hname
  · exact (hname.append (sheltered_of_all (by decide))).append (sheltered_write _)

namespace Annotation

lemma sheltered_render {a : Annotation} (h : a.WellFormed) : a.render.Sheltered := by
  have hparams : ∀ t ∈ a.name :: a.params.map Param.render, t.Sheltered := by
    simp only [List.forall_mem_cons, List.forall_mem_map]
    exact ⟨h.name.sheltered, fun p hp => Param.sheltered_render (h.params p hp)⟩
  have hblank : Sheltered " " := sheltered_of_all (by decide)
  have hinside := sheltered_join hblank hparams
  exact ((sheltered_of_all (by decide)).append hinside).append (sheltered_of_all (by decide))

lemma sheltered_renderTrailing {as : List Annotation} (h : ∀ a ∈ as, a.WellFormed) :
    (renderTrailing as).Sheltered :=
  sheltered_flatMap fun a ha =>
    (sheltered_of_all (t := " ") (by decide)).append (sheltered_render (h a ha))

end Annotation

lemma TypeExpr.sheltered_render {t : TypeExpr} (h : t.WellFormed) : t.render.Sheltered := by
  induction t with
  | primitive p => exact sheltered_of_all (by cases p <;> decide)
  | reference position q name =>
    obtain ⟨hname, hq⟩ := h
    rw [render, referenceText_eq_join]
    exact sheltered_join (sheltered_of_all (by decide)) fun s hs =>
      (isUpperName_of_mem_segments hname hq s hs).sheltered
  | array t ih | maybe t ih =>
    exact ((sheltered_of_all (by decide)).append (ih h)).append (sheltered_of_all (by decide))

lemma Field.sheltered_render {f : Field} (h : f.WellFormed) : f.render.Sheltered := by
  have hnotes := Annotation.sheltered_renderTrailing h.annotations
  exact ((h.name.sheltered.append (sheltered_of_all (by decide))).append
    (TypeExpr.sheltered_render h.type)).append hnotes

lemma sheltered_spaces (n : Int) : (spaces n).Sheltered := by
  refine sheltered_of_all fun c hc => ?_
  rw [List.eq_of_mem_replicate hc]
  decide

lemma Body.sheltered_render {b : Body} (h : b.WellFormed) : (b.render form).Sheltered := by
  rcases b with t | t | (_ | ⟨f, fs⟩) | variants
  · exact TypeExpr.sheltered_render h
  · exact (sheltered_of_all (by decide)).append (TypeExpr.sheltered_render h)
  · exact sheltered_of_all (t := "\x7b\x7d") (by decide)
  · have hfields : ∀ t ∈ (f :: fs).map fun f => spaces form.indent ++ f.render, t.Sheltered := by
      rw [List.forall_mem_map]
      exact fun f hf => (sheltered_spaces form.indent).append (Field.sheltered_render (h f hf))
    have hcomma : Sheltered ",\n" := sheltered_of_all (by decide)
    have hlines := sheltered_join hcomma hfields
    rw [render]
    · exact ((sheltered_of_all (by decide)).append hlines).append (sheltered_of_all (by decide))
    · simp
  · have hbar : Sheltered " | " := sheltered_of_all (by decide)
    have hvariants := sheltered_join hbar fun v hv => (h.2 v hv).sheltered
    exact ((sheltered_of_all (by decide)).append hvariants).append (sheltered_of_all (by decide))

lemma Declaration.sheltered_render {d : Declaration} (h : d.WellFormed) :
    (d.render form).Sheltered := by
  have hnotes := Annotation.sheltered_renderTrailing h.annotations
  exact ((((sheltered_of_all (by decide)).append h.name.sheltered).append
    (sheltered_of_all (by decide))).append (Body.sheltered_render h.body)).append hnotes

/-- In a canonical text slashes and quotation marks stand in literals only. -/
lemma Module.sheltered_render (h : m.WellFormed) : (m.render form).Sheltered := by
  have hbreak : Sheltered "\n" := sheltered_of_all (by decide)
  have hheader : (renderHeader m.exports).Sheltered :=
    (((sheltered_of_all (by decide)).append h.scala.sheltered).append
      (sheltered_of_all (by decide))).append h.purs.sheltered
  have himports : (Text.join "\n" (m.imports.map fun name => "import " ++ name)).Sheltered := by
    refine sheltered_join hbreak ?_
    rw [List.forall_mem_map]
    exact fun i hi => (sheltered_of_all (by decide)).append (h.imports i hi).sheltered
  have hannotations : (Text.join "\n" (m.annotations.map Annotation.render)).Sheltered := by
    refine sheltered_join hbreak ?_
    rw [List.forall_mem_map]
    exact fun a ha => Annotation.sheltered_render (h.annotations a ha)
  have hdeclarations : ∀ t ∈ m.declarations.map (Declaration.render form), t.Sheltered := by
    rw [List.forall_mem_map]
    exact fun d hd => Declaration.sheltered_render (h.declarations d hd)
  have hsections : ∀ t ∈ m.sections form, t.Sheltered := by
    unfold sections
    simp only [List.forall_mem_append, List.forall_mem_cons]
    refine ⟨⟨⟨hheader, ?_⟩, ?_⟩, hdeclarations⟩
    · split <;> simp [himports]
    · split <;> simp [hannotations]
  exact (sheltered_join (sheltered_of_all (by decide)) hsections).append hbreak

/-! ### Between the tokens -/

/-- Outside literals a code point is passed, and is no slash. -/
lemma Text.Sheltered.of_cons (h : Sheltered (c :: t)) (hquote : c ≠ .scalar '"') :
    c ≠ .scalar '/' ∧ t.Sheltered := by
  generalize hs : c :: t = s at h
  cases h with
  | nil => cases hs
  | point hc h =>
    obtain ⟨rfl, rfl⟩ := List.cons.inj hs
    refine ⟨?_, h⟩
    rintro rfl
    exact absurd hc (by decide)
  | literal value => exact absurd (List.cons.inj hs).1 hquote

/-- No comment stands at the front. -/
lemma Trivia.Complete.isBlank (hw : Trivia.Complete w) (h : (w ++ r).Sheltered) :
    (∀ c ∈ w, c.isBlank) ∧ r.Sheltered := by
  have hslash (t : Text) : ¬ Sheltered (.scalar '/' :: t) :=
    fun h => (h.of_cons (by decide)).1 rfl
  induction hw with
  | nil => exact ⟨by simp, h⟩
  | @blank c t hc _ ih =>
    have hquote : c ≠ .scalar '"' := by
      rintro rfl
      exact absurd hc (by decide)
    obtain ⟨ht, hr⟩ := ih (h.of_cons hquote).2
    exact ⟨List.forall_mem_cons.2 ⟨hc, ht⟩, hr⟩
  | line | block => exact absurd h (hslash _)

lemma Trivia.Final.isBlank (hw : Trivia.Final w) (h : w.Sheltered) : ∀ c ∈ w, c.isBlank := by
  rcases hw with hw | ⟨t, body, ht, -, rfl⟩
  · exact (hw.isBlank (r := []) (by rwa [List.append_nil])).1
  · exact absurd rfl ((ht.isBlank h).2.of_cons (by decide)).1

lemma Text.Sheltered.of_append (h : (t ++ r).Sheltered) (ht : .scalar '"' ∉ t) : r.Sheltered := by
  induction t with
  | nil => exact h
  | cons c t ih =>
    rw [List.mem_cons, not_or] at ht
    exact ih (h.of_cons (Ne.symm ht.1)).2 ht.2

/-- Behind a literal at the front the text is sheltered as well. -/
lemma Literal.Denotes.sheltered {body value : Text} (hbody : Literal.Denotes body value)
    (h : Sheltered (.scalar '"' :: (body ++ .scalar '"' :: r))) : r.Sheltered := by
  generalize hs : CodePoint.scalar '"' :: (body ++ .scalar '"' :: r) = s at h
  cases h with
  | nil => cases hs
  | point hc =>
    obtain ⟨rfl, -⟩ := List.cons.inj hs
    exact absurd hc (by decide)
  | @literal value' t h =>
    have htail : body ++ .scalar '"' :: r =
        value'.flatMap Literal.writePoint ++ .scalar '"' :: t := by
      simpa [Literal.write, ofString] using hs
    have hread := hbody.readBody_append r
    rw [htail, Literal.readBody_write] at hread
    obtain ⟨-, -, rfl⟩ := Literal.Body.closed.inj hread
    exact h

/-- Behind a token at the front the text is sheltered as well. -/
lemma Word.WrittenAs.sheltered {v : Word} (hv : v.WrittenAs t) (h : (t ++ r).Sheltered) :
    r.Sheltered := by
  have hname (hpoints : ∀ c ∈ t, c.isPackagePoint) : r.Sheltered := by
    refine h.of_append fun hmem => ?_
    exact absurd (hpoints _ hmem) (by decide)
  have halpha (hpoints : ∀ c ∈ t, c.isAlphanumeric) : r.Sheltered :=
    hname fun c hc => by simp [CodePoint.isPackagePoint, hpoints c hc]
  cases hv with
  | keyword w => exact h.of_append (by cases w <;> decide)
  | mark m => exact h.of_append (by cases m <;> decide)
  | lowerName ht | upperName ht => exact halpha ht.isAlphanumeric
  | packageName ht => exact hname ht.isPackagePoint
  | string hbody => exact hbody.sheltered (by simpa using h)

lemma Laid.isBlank (h : Laid ctx ls r) (hs : Sheltered (ls.flatMap Lexeme.text ++ r)) :
    (∀ l ∈ ls, ∀ c ∈ l.gap, c.isBlank) ∧ r.Sheltered := by
  induction h with
  | nil => exact ⟨by simp, hs⟩
  | @cons ctx l ls r hgap hword _ _ _ ih =>
    rw [List.flatMap_cons, Lexeme.text, List.append_assoc, List.append_assoc] at hs
    obtain ⟨hblank, hs⟩ := hgap.isBlank hs
    obtain ⟨hmore, hr⟩ := ih (hword.sheltered hs)
    exact ⟨List.forall_mem_cons.2 ⟨hblank, hmore⟩, hr⟩

/-- There are only blanks between the tokens of a canonical text and behind them. -/
lemma Module.isBlank_of_cut_render (h : m.WellFormed)
    (hcut : (m.render form).cut = ⟨ls, .clean last⟩) :
    (∀ l ∈ ls, ∀ c ∈ l.gap, c.isBlank) ∧ ∀ c ∈ last, c.isBlank := by
  obtain ⟨htext, hlayout⟩ := Text.cut_eq_clean_iff.1 hcut
  obtain ⟨hgaps, hlast⟩ := hlayout.laid.isBlank (htext ▸ Module.sheltered_render h)
  exact ⟨hgaps, hlayout.last.isBlank hlast⟩

end Idl
