/-
# What is read back

The canonical text keeps everything of a module but its name, the path that goes with it, and
the positions in the text it was read from.  The primitive types without a reserved word are
written like references, and are read as such.  `Module.asWritten` and `Module.unplaced` take this
into account, and `Module.given` shows that tokens with the words of a module spell that module
up to positions.
-/
import Idl.Proofs.Canonical.Words
import Idl.Proofs.Grammar.Derivation

namespace Idl

/-! ### Trees without positions -/

/-- The type without positions. -/
def TypeExpr.unplaced : TypeExpr → TypeExpr
  | .primitive p => .primitive p
  | .reference _ q name => .reference default q name
  | .array t => .array t.unplaced
  | .maybe t => .maybe t.unplaced

/-- The parameter without its position. -/
def Param.unplaced (p : Param) : Param := { p with position := default }

/-- The annotation without positions. -/
def Annotation.unplaced (a : Annotation) : Annotation :=
  ⟨a.name, default, a.params.map Param.unplaced⟩

/-- The field without positions. -/
def Field.unplaced (f : Field) : Field :=
  ⟨f.name, f.type.unplaced, f.annotations.map Annotation.unplaced⟩

/-- The body without positions. -/
def Body.unplaced : Body → Body
  | .alias t => .alias t.unplaced
  | .wrap t => .wrap t.unplaced
  | .record fields => .record (fields.map Field.unplaced)
  | .sum variants => .sum variants

/-- The declaration without positions. -/
def Declaration.unplaced (d : Declaration) : Declaration :=
  ⟨d.name, d.body.unplaced, d.annotations.map Annotation.unplaced⟩

/-- The module without positions. -/
def Module.unplaced (m : Module) : Module :=
  { m with
    annotations := m.annotations.map Annotation.unplaced
    declarations := m.declarations.map Declaration.unplaced }

/-! ### Trees as they are written -/

/-- The type that a primitive type is written as: itself, if it has a reserved word, or else a
reference. -/
def Primitive.asWritten : Primitive → TypeExpr
  | .date => .reference default none "Date"
  | .dateTime => .reference default none "DateTime"
  | .time => .reference default none "Time"
  | p => .primitive p

/-- The type that a type is written as. -/
def TypeExpr.asWritten : TypeExpr → TypeExpr
  | .primitive p => p.asWritten
  | .reference position q name => .reference position q name
  | .array t => .array t.asWritten
  | .maybe t => .maybe t.asWritten

/-- The field that a field is written as. -/
def Field.asWritten (f : Field) : Field := { f with type := f.type.asWritten }

/-- The body that a body is written as. -/
def Body.asWritten : Body → Body
  | .alias t => .alias t.asWritten
  | .wrap t => .wrap t.asWritten
  | .record fields => .record (fields.map Field.asWritten)
  | .sum variants => .sum variants

/-- The declaration that a declaration is written as. -/
def Declaration.asWritten (d : Declaration) : Declaration := { d with body := d.body.asWritten }

/-- The module that a module is written as. -/
def Module.asWritten (m : Module) : Module :=
  { name := []
    exports := { m.exports with templatePath := [] }
    imports := m.imports
    annotations := m.annotations
    declarations := m.declarations.map Declaration.asWritten }

open Phrase

/-! ### Tokens with given words -/

/-- Tokens with these words spell the phrase, with a value of a sort. -/
def Phrase.Given {α : Type} (G : Phrase α) (ws : List Word) (Q : α → Prop) : Prop :=
  ∀ ts : List Token, ts.map Token.word = ws → ∃ a, G a ts ∧ Q a

lemma Token.kind_of_word {t : Token} {k : TokenKind} {x : Text} (h : t.word = (k, x)) :
    t.kind = k :=
  congrArg Prod.fst h

lemma Token.value_of_word {t : Token} {k : TokenKind} {x : Text} (h : t.word = (k, x)) :
    t.value = x :=
  congrArg Prod.snd h

namespace Phrase

variable {α β : Type} {G : Phrase α} {ws : List Word}

lemma given_word {k : TokenKind} {x : Text} : (word k).Given [(k, x)] (· = x) := by
  intro ts h
  simp only [List.map_eq_cons_iff, List.map_eq_nil_iff] at h
  obtain ⟨t, _, rfl, ht, rfl⟩ := h
  exact ⟨x, ⟨t, rfl, t.kind_of_word ht, t.value_of_word ht⟩, rfl⟩

lemma Given.behind {Q : α → Prop} {k : TokenKind} {x : Text} (h : G.Given ws Q) :
    (Phrase.behind k G).Given ((k, x) :: ws) Q := by
  intro ts hts
  simp only [List.map_eq_cons_iff] at hts
  obtain ⟨t, us, rfl, ht, hus⟩ := hts
  obtain ⟨a, ha, hQ⟩ := h us hus
  exact ⟨a, ⟨t, us, rfl, t.kind_of_word ht, ha⟩, hQ⟩

/-- Part by part, a repetition is spelled. -/
lemma given_many {γ : Type} {f : γ → List Word} {u : α → β} {v : γ → β} {cs : List γ}
    (h : ∀ c ∈ cs, G.Given (f c) (u · = v c)) :
    (Many G).Given (cs.flatMap f) (·.map u = cs.map v) := by
  induction cs with
  | nil =>
    intro ts hts
    obtain rfl := List.map_eq_nil_iff.1 hts
    exact ⟨[], .nil, rfl⟩
  | cons c cs ih =>
    intro ts hts
    rw [List.flatMap_cons, List.map_eq_append_iff] at hts
    obtain ⟨us, vs, rfl, hus, hvs⟩ := hts
    obtain ⟨a, ha, hac⟩ := h c List.mem_cons_self us hus
    obtain ⟨as, has, hacs⟩ := ih (fun d hd => h d (List.mem_cons_of_mem c hd)) vs hvs
    exact ⟨a :: as, .cons ha has, congrArg₂ List.cons hac hacs⟩

end Phrase

/-! ### Annotations -/

lemma Param.given (p : Param) : Phrase.Given Param.SpelledBy p.words (·.unplaced = p.unplaced) := by
  obtain ⟨name, position, value⟩ := p
  cases value with
  | none =>
    intro ts h
    simp only [words, List.map_eq_cons_iff, List.map_eq_nil_iff] at h
    obtain ⟨t, _, rfl, ht, rfl⟩ := h
    refine ⟨_, .plain (t.kind_of_word ht), ?_⟩
    simp only [unplaced, t.value_of_word ht]
  | some v =>
    intro ts h
    simp only [words, List.map_eq_cons_iff, List.map_eq_nil_iff] at h
    obtain ⟨t, _, rfl, ht, assign, _, rfl, hassign, value, _, rfl, hvalue, rfl⟩ := h
    refine ⟨_, .valued (t.kind_of_word ht) (assign.kind_of_word hassign)
      (value.kind_of_word hvalue), ?_⟩
    simp only [unplaced, t.value_of_word ht, value.value_of_word hvalue]

namespace Annotation

lemma given (a : Annotation) :
    Phrase.Given Annotation.SpelledBy a.words (·.unplaced = a.unplaced) := by
  intro ts h
  simp only [words, List.cons_append, List.nil_append, List.map_eq_cons_iff, List.map_eq_append_iff,
    List.map_eq_nil_iff] at h
  obtain ⟨opening, _, rfl, hopening, name, _, rfl, hname, us, _, rfl, hus, closing, _, rfl,
    hclosing, rfl⟩ := h
  obtain ⟨params, hparams, heq⟩ := given_many (fun p _ => Param.given p) us hus
  refine ⟨_, .mk (opening.kind_of_word hopening) (name.kind_of_word hname) hparams
    (closing.kind_of_word hclosing), ?_⟩
  simp only [unplaced, name.value_of_word hname, heq]

lemma given_all (as : List Annotation) : (Many Annotation.SpelledBy).Given (as.flatMap words)
    (·.map unplaced = as.map unplaced) :=
  given_many fun a _ => a.given

end Annotation

/-! ### Type expressions -/

namespace TypeExpr

/-- A name behind a mark. -/
lemma given_names {k : Mark} {xs : List Text} (h : ∀ x ∈ xs, x.IsUpperName) :
    (Many (behind (.mark k) (word .upperName))).Given (xs.flatMap fun x => [k.word, x.word])
      (· = xs) := by
  have hname : ∀ x ∈ xs,
      (behind (.mark k) (word .upperName)).Given [k.word, x.word] (id · = id x) := by
    intro x hx
    rw [(h x hx).word]
    exact given_word.behind
  intro ts hts
  obtain ⟨ys, hys, heq⟩ := given_many hname ts hts
  exact ⟨ys, hys, by simpa using heq⟩

lemma given_reference {position : Position} {q : Option Text} {name : Text}
    (h : (TypeExpr.reference position q name).WellFormed) :
    Phrase.Given TypeExpr.SpelledBy (Text.dottedWords (segments q name))
      (·.unplaced = .reference default q name) := by
  obtain ⟨hname, hq⟩ := h
  have hsegments := isUpperName_of_mem_segments hname hq
  obtain ⟨s, ss, heq⟩ := List.exists_cons_of_ne_nil (l := segments q name) (by simp [segments])
  rw [heq] at hsegments ⊢
  intro ts hts
  simp only [Text.dottedWords, List.map_eq_cons_iff] at hts
  obtain ⟨first, us, rfl, hfirst, hus⟩ := hts
  rw [(hsegments s List.mem_cons_self).word] at hfirst
  obtain ⟨more, hmore, rfl⟩ :=
    given_names (fun x hx => hsegments x (List.mem_cons_of_mem s hx)) us hus
  -- the segments are cut at the dots of the qualifier, so joining all but the last restores it
  have hlast : first.value :: more = q.elim [] (Text.pieces '.') ++ [name] := by
    rw [first.value_of_word hfirst, ← heq, segments]
  have hjoin : q.getD [] = Text.join "." (q.elim [] (Text.pieces '.')) := by
    cases q with
    | none => rfl
    | some q => exact (Text.join_pieces (.scalar '.') q).symm
  have hne : q ≠ some [] := by
    rintro rfl
    exact hq [] rfl [] (by decide)
  exact ⟨_, .reference (first.kind_of_word hfirst) hmore hlast hjoin hne, rfl⟩

/-- A type that is written by a single reserved word or by a single name. -/
lemma given_primitive (p : Primitive) :
    Phrase.Given TypeExpr.SpelledBy [p.spelling.word] (·.unplaced = p.asWritten.unplaced) := by
  have hword {w : Keyword} {p : Primitive} (h : w.spelling = p.spelling) :
      Phrase.Given TypeExpr.SpelledBy [w.word] (·.unplaced = .primitive p) := by
    intro ts hts
    simp only [List.map_eq_cons_iff, List.map_eq_nil_iff] at hts
    obtain ⟨t, _, rfl, ht, rfl⟩ := hts
    exact ⟨_, .primitive (t.kind_of_word ht) h, rfl⟩
  have hname {x : Text} (hx : x.IsUpperName) :
      Phrase.Given TypeExpr.SpelledBy [x.word] (·.unplaced = .reference default none x) := by
    have hwell : (TypeExpr.reference default none x).WellFormed := ⟨hx, by simp⟩
    exact given_reference hwell
  cases p with
  | boolean => exact hword (w := .boolean) rfl
  | int => exact hword (w := .int) rfl
  | decimal => exact hword (w := .decimal) rfl
  | string => exact hword (w := .string) rfl
  | date | dateTime | time => exact hname (by decide)

lemma given_argument {w : Keyword} {ws : List Word} {Q : TypeExpr → Prop}
    (h : Phrase.Given TypeExpr.SpelledBy ws Q) (ts : List Token)
    (hts : ts.map Token.word = [w.word, Mark.openAngle.word] ++ (ws ++ [Mark.closeAngle.word])) :
    ∃ head opening t us closing, ts = head :: opening :: us ++ [closing] ∧
      head.kind = .keyword w ∧ opening.kind = .mark .openAngle ∧ TypeExpr.SpelledBy t us ∧ Q t ∧
      closing.kind = .mark .closeAngle := by
  simp only [List.cons_append, List.nil_append, List.map_eq_cons_iff, List.map_eq_append_iff,
    List.map_eq_nil_iff] at hts
  obtain ⟨head, _, rfl, hhead, opening, _, rfl, hopening, us, _, rfl, hus, closing, _, rfl,
    hclosing, rfl⟩ := hts
  obtain ⟨t, ht, hQ⟩ := h us hus
  exact ⟨head, opening, t, us, closing, rfl, head.kind_of_word hhead,
    opening.kind_of_word hopening, ht, hQ, closing.kind_of_word hclosing⟩

lemma given {t : TypeExpr} (h : t.WellFormed) :
    Phrase.Given TypeExpr.SpelledBy t.words (·.unplaced = t.asWritten.unplaced) := by
  induction t with
  | primitive p => exact given_primitive p
  | reference position q name => exact given_reference h
  | array t ih =>
    intro ts hts
    obtain ⟨head, opening, t', us, closing, rfl, hhead, hopening, ht, heq, hclosing⟩ :=
      given_argument (ih h) ts hts
    exact ⟨_, .array hhead hopening ht hclosing, congrArg TypeExpr.array heq⟩
  | maybe t ih =>
    intro ts hts
    obtain ⟨head, opening, t', us, closing, rfl, hhead, hopening, ht, heq, hclosing⟩ :=
      given_argument (ih h) ts hts
    exact ⟨_, .maybe hhead hopening ht hclosing, congrArg TypeExpr.maybe heq⟩

end TypeExpr

/-! ### Declarations -/

open Annotation (given_all)

lemma Field.given {f : Field} (h : f.WellFormed) :
    Phrase.Given Field.SpelledBy f.words (·.unplaced = f.asWritten.unplaced) := by
  intro ts hts
  simp only [words, List.cons_append, List.nil_append, List.map_eq_cons_iff,
    List.map_eq_append_iff] at hts
  obtain ⟨name, _, rfl, hname, colon, _, rfl, hcolon, us, vs, rfl, hus, hvs⟩ := hts
  obtain ⟨t, ht, htype⟩ := TypeExpr.given h.type us hus
  obtain ⟨as, has, hnotes⟩ := given_all f.annotations vs hvs
  refine ⟨_, .mk (name.kind_of_word hname) (colon.kind_of_word hcolon) ht has, ?_⟩
  simp only [unplaced, asWritten, name.value_of_word hname, htype, hnotes]

namespace Body

lemma given_record {f : Field} {fs : List Field} (h : ∀ g ∈ f :: fs, g.WellFormed) :
    Phrase.Given Body.SpelledBy (Body.record (f :: fs)).words
      (·.unplaced = (Body.record (f :: fs)).asWritten.unplaced) := by
  have hfield : ∀ g ∈ f :: fs, Phrase.Given Field.SpelledBy g.words
      (·.unplaced = (g.asWritten).unplaced) := fun g hg => Field.given (h g hg)
  intro ts hts
  simp only [words, List.map_eq_cons_iff, List.map_eq_append_iff, List.map_eq_nil_iff] at hts
  obtain ⟨opening, _, rfl, hopening, us, _, rfl, hus, vs, _, rfl, hvs, closing, _, rfl, hclosing,
    rfl⟩ := hts
  obtain ⟨g, hg, hfirst⟩ := hfield f List.mem_cons_self us hus
  obtain ⟨gs, hgs, hmore⟩ := given_many
    (fun g hg => (hfield g (List.mem_cons_of_mem f hg)).behind (k := .mark .comma)) vs hvs
  have hspelled := Body.SpelledBy.record (opening.kind_of_word hopening) hg hgs
    (closing.kind_of_word hclosing)
  rw [List.append_assoc] at hspelled
  refine ⟨_, hspelled, ?_⟩
  simp only [unplaced, asWritten, List.map_cons, List.map_map, hfirst, hmore, Function.comp_def]

lemma given_sum {v : Text} {vs : List Text} (h : ∀ w ∈ v :: vs, w.IsUpperName) :
    Phrase.Given Body.SpelledBy (Body.sum (v :: vs)).words (· = Body.sum (v :: vs)) := by
  intro ts hts
  simp only [words, List.cons_append, List.nil_append, List.map_eq_cons_iff, List.map_eq_append_iff,
    List.map_eq_nil_iff] at hts
  obtain ⟨opening, _, rfl, hopening, first, _, rfl, hfirst, us, _, rfl, hus, closing, _, rfl,
    hclosing, rfl⟩ := hts
  rw [(h v List.mem_cons_self).word] at hfirst
  obtain ⟨more, hmore, rfl⟩ :=
    TypeExpr.given_names (fun w hw => h w (List.mem_cons_of_mem v hw)) us hus
  refine ⟨_, .sum (opening.kind_of_word hopening) (first.kind_of_word hfirst) hmore
    (closing.kind_of_word hclosing), ?_⟩
  rw [first.value_of_word hfirst]

lemma given {b : Body} (h : b.WellFormed) :
    Phrase.Given Body.SpelledBy b.words (·.unplaced = b.asWritten.unplaced) := by
  rcases b with t | t | (_ | ⟨f, fs⟩) | variants
  · intro ts hts
    obtain ⟨t', ht, heq⟩ := TypeExpr.given h ts hts
    exact ⟨_, .alias ht, congrArg Body.alias heq⟩
  · intro ts hts
    simp only [words, List.map_eq_cons_iff] at hts
    obtain ⟨head, us, rfl, hhead, hus⟩ := hts
    obtain ⟨t', ht, heq⟩ := TypeExpr.given h us hus
    exact ⟨_, .wrap (head.kind_of_word hhead) ht, congrArg Body.wrap heq⟩
  · intro ts hts
    simp only [words, List.map_eq_cons_iff, List.map_eq_nil_iff] at hts
    obtain ⟨opening, _, rfl, hopening, closing, _, rfl, hclosing, rfl⟩ := hts
    exact ⟨_, .emptyRecord (opening.kind_of_word hopening) (closing.kind_of_word hclosing), rfl⟩
  · exact given_record h
  · obtain ⟨hne, h⟩ := h
    obtain ⟨v, vs, rfl⟩ := List.exists_cons_of_ne_nil hne
    intro ts hts
    obtain ⟨b, hb, rfl⟩ := given_sum h ts hts
    exact ⟨_, hb, rfl⟩

end Body

lemma Declaration.given {d : Declaration} (h : d.WellFormed) :
    Phrase.Given Declaration.SpelledBy d.words (·.unplaced = d.asWritten.unplaced) := by
  intro ts hts
  simp only [words, List.cons_append, List.nil_append, List.map_eq_cons_iff, List.map_eq_append_iff,
    h.name.word] at hts
  obtain ⟨head, _, rfl, hhead, name, _, rfl, hname, colon, _, rfl, hcolon, us, vs, rfl, hus, hvs⟩ :=
    hts
  obtain ⟨b, hb, hbody⟩ := Body.given h.body us hus
  obtain ⟨as, has, hnotes⟩ := given_all d.annotations vs hvs
  refine ⟨_, .mk (head.kind_of_word hhead) (name.kind_of_word hname) (colon.kind_of_word hcolon)
    hb has, ?_⟩
  simp only [unplaced, asWritten, name.value_of_word hname, hbody, hnotes]

/-! ### Modules -/

lemma Phrase.given_export (w : Keyword) (package : Text) :
    (Phrase.Export w).Given (w.exportWords package) (· = package) := by
  intro ts hts
  simp only [Keyword.exportWords, List.map_eq_cons_iff, List.map_eq_nil_iff] at hts
  obtain ⟨head, _, rfl, hhead, colon, _, rfl, hcolon, t, _, rfl, ht, rfl⟩ := hts
  exact ⟨_, .mk (head.kind_of_word hhead) (colon.kind_of_word hcolon) (t.kind_of_word ht),
    t.value_of_word ht⟩

lemma Phrase.given_imports (imports : List Text) :
    (Many (behind (.keyword .imports) (word .packageName))).Given
      (imports.flatMap Text.importWords) (·.map id = imports.map id) :=
  given_many fun _ _ => given_word.behind

/-- Tokens with the words of a well-formed module spell the module, up to what is not written. -/
lemma Module.given {m : Module} (h : m.WellFormed) :
    Phrase.Given Module.ContentSpelledBy m.words (·.unplaced = m.asWritten.unplaced) := by
  intro ts hts
  simp only [words, List.map_eq_append_iff] at hts
  obtain ⟨_, ts₅, rfl, ⟨_, ts₄, rfl, ⟨_, ts₃, rfl, ⟨ts₁, ts₂, rfl, h₁, h₂⟩, h₃⟩, h₄⟩, h₅⟩ := hts
  obtain ⟨scala, hscala, rfl⟩ := given_export .scala m.exports.scala ts₁ h₁
  obtain ⟨purs, hpurs, rfl⟩ := given_export .purs m.exports.purs ts₂ h₂
  obtain ⟨imports, himports, heq⟩ := given_imports m.imports ts₃ h₃
  obtain ⟨as, has, hnotes⟩ := given_all m.annotations ts₄ h₄
  obtain ⟨ds, hds, hdeclarations⟩ :=
    given_many (fun d hd => Declaration.given (h.declarations d hd)) ts₅ h₅
  rw [List.map_id, List.map_id] at heq
  refine ⟨_, .mk hscala hpurs himports has hds, ?_⟩
  simp only [unplaced, asWritten, heq, hnotes, hdeclarations, List.map_map, Function.comp_def]

end Idl
