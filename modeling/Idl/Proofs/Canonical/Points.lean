/-
# The code points of a canonical text

Everything in a canonical text but its literals is made of names, and of marks, words and layout
in plain ASCII.  So a code point of any other sort is in the canonical text of a module just if it
is in one of its literals (`Module.any_render`).  A line break of a sort that is not plain is one:
no literal has it as it stands, so that the canonical text is read from a file as it was written
(`Module.withPlainBreaks_render`).
-/
import Idl.Proofs.Canonical.Words
import Idl.Text.Lines

namespace Idl

/-! ### Values -/

/-- The values of the parameters of an annotation. -/
def Annotation.values (a : Annotation) : List Text := a.params.filterMap Param.value

/-- The annotations of the fields of a body. -/
def Body.annotations : Body → List Annotation
  | .record fields => fields.flatMap Field.annotations
  | _ => []

/-- The values in the annotations of a declaration and of its fields. -/
def Declaration.values (d : Declaration) : List Text :=
  (d.body.annotations ++ d.annotations).flatMap Annotation.values

/-- The values in all annotations of a module. -/
def Module.values (m : Module) : List Text :=
  m.annotations.flatMap Annotation.values ++ m.declarations.flatMap Declaration.values

variable {form : Formatter} {m : Module} {p : CodePoint → Bool} {s sep t u : Text}

/-! ### Classes of code points -/

/-- A character of the marks, words and layout of a canonical text. -/
def isPlain (c : Char) : Bool := c = '\n' || (0x20 ≤ c.toNat && c.toNat < 0x7F)

/-- A class of code points that are found in literals only. -/
structure OnlyInLiterals (p : CodePoint → Bool) : Prop where
  alphanumeric : ∀ c : CodePoint, c.isAlphanumeric → p c = false
  plain : ∀ c : Char, isPlain c → p c = false

namespace Text

/-- Parts that are written one after the other with code points of a class just where their values
are written with some. -/
lemma any_map_eq {α β : Type} {as : List α} {f : α → Text} {g : α → List β} {q : β → Bool}
    (h : ∀ a ∈ as, (f a).any p = (g a).any q) :
    (as.map f).any (·.any p) = (as.flatMap g).any q := by
  induction as with
  | nil => rfl
  | cons a as ih =>
    obtain ⟨ha, has⟩ := List.forall_mem_cons.1 h
    rw [List.map_cons, List.any_cons, List.flatMap_cons, List.any_append, ha, ih has]

lemma any_join (hsep : sep.any p = false) (ts : List Text) :
    (join sep ts).any p = ts.any (·.any p) := by
  induction ts with
  | nil => rfl
  | cons t ts ih =>
    cases ts with
    | nil => simp [join]
    | cons u ts =>
      rw [join, List.any_append, List.any_append, hsep, ih, Bool.or_false]
      · rfl
      · simp

end Text

namespace OnlyInLiterals

lemma any_ofString (hp : OnlyInLiterals p) {s : String} (hs : s.toList.all isPlain) :
    (Text.ofString s).any p = false := by
  rw [Text.ofString, List.any_map, List.any_eq_false]
  exact fun c hc => Bool.eq_false_iff.1 (hp.plain c (List.all_eq_true.1 hs c hc))

lemma any_spaces (hp : OnlyInLiterals p) (n : Int) : (Text.spaces n).any p = false := by
  refine List.any_eq_false.2 fun c hc => ?_
  rw [List.eq_of_mem_replicate hc, hp.plain ' ' rfl]
  simp

lemma any_packageName (hp : OnlyInLiterals p) (h : t.IsPackageName) : t.any p = false := by
  refine List.any_eq_false.2 fun c hc => ?_
  rcases Bool.or_eq_true_iff.1 (h.isPackagePoint c hc) with hc | hc
  · simp [hp.alphanumeric c hc]
  · rw [of_decide_eq_true hc, hp.plain '.' rfl]
    simp

lemma any_name (hp : OnlyInLiterals p) {start : CodePoint → Bool} (h : t.IsName start) :
    t.any p = false :=
  List.any_eq_false.2 fun c hc => by simp [hp.alphanumeric c (h.isAlphanumeric c hc)]

lemma any_lowerName (hp : OnlyInLiterals p) (h : t.IsLowerName) : t.any p = false := hp.any_name h

lemma any_upperName (hp : OnlyInLiterals p) (h : t.IsUpperName) : t.any p = false := hp.any_name h

end OnlyInLiterals

/-! ### Parts of a module -/

namespace Literal

/-- Whether the literal of a value has a code point of a class. -/
def holds (p : CodePoint → Bool) (v : Text) : Bool := (write v).any p

lemma holds_eq (hp : OnlyInLiterals p) (v : Text) :
    holds p v = v.any fun c => (writePoint c).any p := by
  rw [holds, write, List.any_append, List.any_append, List.any_flatMap, hp.any_ofString rfl,
    Bool.or_false, Bool.false_or]

/-- Escapes are written in plain ASCII. -/
lemma any_writePoint_or (hp : OnlyInLiterals p) (c : CodePoint) :
    (writePoint c).any p = false ∨ writePoint c = [c] := by
  have hletter (s : String) (q : Prop) [Decidable q] (t : Text) (hs : s.toList.all isPlain)
      (ht : t.any p = false ∨ t = [c]) :
      (if q then Text.ofString s else t).any p = false ∨
        (if q then Text.ofString s else t) = [c] := by
    split
    · exact .inl (hp.any_ofString hs)
    · exact ht
  unfold writePoint
  iterate 10 refine hletter _ _ _ rfl ?_
  split
  · next hcontrol =>
    have hhex : ∀ n < 0x80, ∀ x ∈ Text.ofHex 2 n, x.isAlphanumeric := by decide
    simp only [Bool.or_eq_true, decide_eq_true_eq] at hcontrol
    refine .inl ?_
    rw [List.any_append, hp.any_ofString rfl, Bool.false_or, List.any_eq_false]
    exact fun x hx => by simp [hp.alphanumeric x (hhex _ (by omega) x hx)]
  · exact .inr rfl

end Literal

lemma Param.any_render (hp : OnlyInLiterals p) {q : Param} (h : q.WellFormed) :
    q.render.any p = q.value.any (Literal.holds p) := by
  have hname := hp.any_lowerName h
  unfold Param.render
  cases q.value with
  | none => simp [hname]
  | some v =>
    rw [List.any_append, List.any_append, hname, hp.any_ofString rfl]
    rfl

namespace Annotation

variable {a : Annotation} {as : List Annotation}

lemma any_render (hp : OnlyInLiterals p) (h : a.WellFormed) :
    a.render.any p = a.values.any (Literal.holds p) := by
  have hparams : (a.params.map Param.render).any (·.any p) = a.values.any (Literal.holds p) := by
    have hvalues : a.values = a.params.flatMap fun q => q.value.toList :=
      List.filterMap_eq_flatMap_toList _ _
    rw [hvalues]
    refine Text.any_map_eq fun q hq => ?_
    rw [Param.any_render hp (h.params q hq)]
    cases q.value <;> simp
  rw [render, List.any_append, List.any_append, Text.any_join (hp.any_ofString rfl), List.any_cons,
    hparams, hp.any_lowerName h.name, hp.any_ofString rfl, hp.any_ofString rfl, Bool.or_false]
  rfl

lemma any_renderTrailing (hp : OnlyInLiterals p) (h : ∀ a ∈ as, a.WellFormed) :
    (renderTrailing as).any p = (as.flatMap values).any (Literal.holds p) := by
  rw [renderTrailing, ← Text.any_map_eq fun a ha => any_render hp (h a ha), List.any_flatMap,
    List.any_map]
  simp [Function.comp_def, hp.any_ofString (s := " ") rfl]

end Annotation

lemma TypeExpr.any_render (hp : OnlyInLiterals p) {t : TypeExpr} (h : t.WellFormed) :
    t.render.any p = false := by
  induction t with
  | primitive w => cases w <;> exact hp.any_ofString rfl
  | reference position q name =>
    obtain ⟨hname, hq⟩ := h
    rw [render, referenceText_eq_join, Text.any_join (hp.any_ofString rfl)]
    refine List.any_eq_false.2 fun s hs => ?_
    simp [hp.any_upperName (isUpperName_of_mem_segments hname hq s hs)]
  | array t ih | maybe t ih =>
    rw [render, List.any_append, List.any_append, ih h, hp.any_ofString rfl, hp.any_ofString rfl]
    rfl

lemma Field.any_render (hp : OnlyInLiterals p) {f : Field} (h : f.WellFormed) :
    f.render.any p = (f.annotations.flatMap Annotation.values).any (Literal.holds p) := by
  rw [render, List.any_append, List.any_append, List.any_append, hp.any_lowerName h.name,
    TypeExpr.any_render hp h.type, Annotation.any_renderTrailing hp h.annotations,
    hp.any_ofString rfl]
  rfl

lemma Body.any_render (hp : OnlyInLiterals p) {b : Body} (h : b.WellFormed) :
    (b.render form).any p =
      (b.annotations.flatMap Annotation.values).any (Literal.holds p) := by
  cases b with
  | «alias» t => exact TypeExpr.any_render hp h
  | wrap t =>
    rw [render, List.any_append, TypeExpr.any_render hp h, hp.any_ofString rfl]
    rfl
  | record fields =>
    cases fields with
    | nil => exact hp.any_ofString rfl
    | cons f fields =>
      have hfields :
          ((f :: fields).map fun f => Text.spaces form.indent ++ f.render).any (·.any p) =
            ((f :: fields).flatMap fun f => f.annotations.flatMap Annotation.values).any
              (Literal.holds p) :=
        Text.any_map_eq fun f hf => by
          rw [List.any_append, hp.any_spaces, Bool.false_or, Field.any_render hp (h f hf)]
      rw [render, List.any_append, List.any_append, Text.any_join (hp.any_ofString rfl), hfields]
      · rw [annotations, List.flatMap_assoc, hp.any_ofString rfl, hp.any_ofString rfl,
          Bool.false_or, Bool.or_false]
      · simp
  | sum variants =>
    have hvariants : variants.any (·.any p) = false :=
      List.any_eq_false.2 fun v hv => by simp [hp.any_upperName (h.2 v hv)]
    rw [render, List.any_append, List.any_append, Text.any_join (hp.any_ofString rfl), hvariants,
      hp.any_ofString rfl, hp.any_ofString rfl]
    rfl

lemma Declaration.any_render (hp : OnlyInLiterals p) {d : Declaration} (h : d.WellFormed) :
    (d.render form).any p = d.values.any (Literal.holds p) := by
  rw [render, List.any_append, List.any_append, List.any_append, List.any_append,
    hp.any_upperName h.name, Body.any_render hp h.body,
    Annotation.any_renderTrailing hp h.annotations, hp.any_ofString rfl, hp.any_ofString rfl,
    values, List.flatMap_append, List.any_append]
  rfl

namespace Module

lemma any_sections (hp : OnlyInLiterals p) (h : m.WellFormed) :
    (m.sections form).any (·.any p) = m.values.any (Literal.holds p) := by
  have hheader : (renderHeader m.exports).any p = false := by
    rw [renderHeader, List.any_append, List.any_append, List.any_append,
      hp.any_packageName h.scala, hp.any_packageName h.purs, hp.any_ofString rfl,
      hp.any_ofString rfl]
    rfl
  have himports : (Text.join "\n" (m.imports.map fun name => "import " ++ name)).any p =
      false := by
    rw [Text.any_join (hp.any_ofString rfl), List.any_map]
    refine List.any_eq_false.2 fun i hi => ?_
    simp [hp.any_packageName (h.imports i hi), hp.any_ofString (s := "import ") rfl]
  have hannotations : (Text.join "\n" (m.annotations.map Annotation.render)).any p =
      (m.annotations.flatMap Annotation.values).any (Literal.holds p) := by
    rw [Text.any_join (hp.any_ofString rfl)]
    exact Text.any_map_eq fun a ha => Annotation.any_render hp (h.annotations a ha)
  have hdeclarations : (m.declarations.map (Declaration.render form)).any (·.any p) =
      (m.declarations.flatMap Declaration.values).any (Literal.holds p) :=
    Text.any_map_eq fun d hd => Declaration.any_render hp (h.declarations d hd)
  -- sections that are left out have no values
  have hifImports : (if m.imports = [] then []
      else [Text.join "\n" (m.imports.map fun name => "import " ++ name)]).any (·.any p) =
        false := by
    split <;> simp [himports]
  have hifAnnotations : (if m.annotations = [] then []
      else [Text.join "\n" (m.annotations.map Annotation.render)]).any (·.any p) =
        (m.annotations.flatMap Annotation.values).any (Literal.holds p) := by
    split
    · next hnone => simp [hnone]
    · simp [hannotations]
  rw [sections, List.any_append, List.any_append, List.any_cons, hheader, hifImports,
    hifAnnotations, hdeclarations, values, List.any_append]
  rfl

/-- The canonical text of a well-formed module has such code points just where its literals do. -/
lemma any_render (hp : OnlyInLiterals p) (h : m.WellFormed) :
    (m.render form).any p = m.values.any (Literal.holds p) := by
  rw [render, List.any_append, Text.any_join (hp.any_ofString rfl), any_sections hp h,
    hp.any_ofString rfl, Bool.or_false]

end Module

/-! ### Line breaks -/

lemma onlyInLiterals_carriageReturn : OnlyInLiterals (· = '\r') where
  alphanumeric c h := by
    refine decide_eq_false ?_
    rintro rfl
    exact absurd h (by decide)
  plain c h := by
    refine decide_eq_false fun hc => ?_
    obtain rfl := CodePoint.scalar.inj hc
    exact absurd h (by decide)

/-- Line breaks are written as escapes. -/
lemma Literal.holds_carriageReturn (v : Text) : holds (· = '\r') v = false := by
  have hpoint (c : CodePoint) : (writePoint c).any (· = '\r') = false := by
    by_cases hc : c = '\r'
    · rw [hc]
      rfl
    · rcases any_writePoint_or onlyInLiterals_carriageReturn c with h | h
      · exact h
      · simp [h, hc]
  simp [holds_eq onlyInLiterals_carriageReturn, hpoint]

/-- Without breaks of the other sorts there is nothing to be made plain. -/
lemma Text.withPlainBreaks_eq (h : s.any (· = '\r') = false) : s.withPlainBreaks = s := by
  fun_induction withPlainBreaks s with
  | case1 => rfl
  | case2 | case4 | case5 => simp_all
  | case3 => rfl
  | case6 c d r _ _ ih =>
    rw [List.any_cons, Bool.or_eq_false_iff] at h
    rw [ih h.2]

/-- A canonical text is read from a file as it was written. -/
lemma Module.withPlainBreaks_render (h : m.WellFormed) (form : Formatter) :
    (m.render form).withPlainBreaks = m.render form := by
  refine Text.withPlainBreaks_eq ?_
  rw [any_render onlyInLiterals_carriageReturn h]
  exact List.any_eq_false.2 fun v _ => by simp [Literal.holds_carriageReturn]

end Idl
