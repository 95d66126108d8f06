/-
# Modules that were read

A module that was read from a text is well-formed, has no primitive type without a reserved word,
and is not nested deeper than its reader went; hence its round trip is stable wherever there is a
formatter and the types are nested no deeper than the second reader goes
(`Module.sound_of_parse`).  The names are followed from the tokens into the tree, one case for
each rule of the grammar.
-/
import Idl.Proofs.Canonical.RoundTrip
import Idl.Proofs.Command.Session
import Idl.Proofs.Grammar.References
import Idl.Proofs.Token.Sorts
import Mathlib.Algebra.Order.BigOperators.Group.List

namespace Idl

open Phrase

variable {_ : Machine}

/-- The primitive type that a type is made of, if it is made of one. -/
def TypeExpr.primitive? : TypeExpr → Option Primitive
  | .primitive p => some p
  | .reference .. => none
  | .array t | .maybe t => t.primitive?

/-- The primitive types that only generators use. -/
def Primitive.withoutWord : List Primitive := [.date, .dateTime, .time]

/-! ### Names in trees -/

namespace Token

variable {t : Token}

lemma isLowerName (h : t.word.Sound) (hk : t.kind = .lowerName) : t.value.IsLowerName := by
  rw [word, hk] at h
  exact h

lemma isUpperName (h : t.word.Sound) (hk : t.kind = .upperName) : t.value.IsUpperName := by
  rw [word, hk] at h
  exact h

lemma isPackageName (h : t.word.Sound) (hk : t.kind = .packageName) : t.value.IsPackageName := by
  rw [word, hk] at h
  exact h

end Token

section

variable {α : Type} {G : Phrase α} {P : α → Prop} {ts : List Token}

lemma Phrase.Many.forall_mem {as : List α} (h : Many G as ts) (hts : ∀ t ∈ ts, t.word.Sound)
    (hG : ∀ a us, G a us → (∀ t ∈ us, t.word.Sound) → P a) : ∀ a ∈ as, P a := by
  intro a ha
  obtain ⟨us, hus, haus⟩ := h.exists_of_mem ha
  exact hG a us haus fun t ht => hts t (hus.subset ht)

lemma Phrase.isUpperName_of_behind {k : TokenKind} {x : Text}
    (h : behind k (word .upperName) x ts) (hts : ∀ t ∈ ts, t.word.Sound) : x.IsUpperName := by
  obtain ⟨mark, _, rfl, -, name, rfl, hname, rfl⟩ := h
  exact name.isUpperName (hts name (by simp)) hname

lemma Param.SpelledBy.wellFormed {p : Param} (h : p.SpelledBy ts)
    (hts : ∀ t ∈ ts, t.word.Sound) : p.WellFormed := by
  rcases h with hname | ⟨hname, -, -⟩
  · exact Token.isLowerName (hts _ (by simp)) hname
  · exact Token.isLowerName (hts _ (by simp)) hname

lemma Annotation.SpelledBy.wellFormed {a : Annotation} (h : a.SpelledBy ts)
    (hts : ∀ t ∈ ts, t.word.Sound) : a.WellFormed := by
  obtain ⟨-, hname, hparams, -⟩ := h
  refine ⟨Token.isLowerName (hts _ (by simp)) hname, ?_⟩
  exact hparams.forall_mem (fun t ht => hts t (by simp [ht])) fun _ _ => Param.SpelledBy.wellFormed

lemma TypeExpr.SpelledBy.wellFormed {t : TypeExpr} (h : t.SpelledBy ts)
    (hts : ∀ t ∈ ts, t.word.Sound) : t.WellFormed := by
  induction h with
  | primitive => trivial
  | @reference first more segments q name ts hfirst hmore hname hq hne =>
    have hall : ∀ s ∈ segments ++ [name], s.IsUpperName := by
      rw [← hname, List.forall_mem_cons]
      refine ⟨first.isUpperName (hts first (by simp)) hfirst, ?_⟩
      exact hmore.forall_mem (fun t ht => hts t (by simp [ht])) fun _ _ => isUpperName_of_behind
    rw [List.forall_mem_append] at hall
    refine ⟨hall.2 name (by simp), ?_⟩
    intro x hx
    obtain rfl : q = some x := hx
    rw [Option.getD_some] at hq
    -- without segments the qualifier would be the empty text, which the grammar leaves out
    have hsegments : segments ≠ [] := by
      rintro rfl
      exact hne (congrArg some hq)
    rw [hq]
    exact Text.dotted_join hsegments hall.1 fun _ => Text.IsName.isAlphanumeric
  | array _ _ _ _ ih | maybe _ _ _ _ ih => exact ih fun t ht => hts t (by simp [ht])

lemma Field.SpelledBy.wellFormed {f : Field} (h : f.SpelledBy ts)
    (hts : ∀ t ∈ ts, t.word.Sound) : f.WellFormed := by
  obtain ⟨hname, -, htype, hnotes⟩ := h
  refine ⟨Token.isLowerName (hts _ (by simp)) hname,
    htype.wellFormed fun t ht => hts t (by simp [ht]), ?_⟩
  exact hnotes.forall_mem (fun t ht => hts t (by simp [ht]))
    fun _ _ => Annotation.SpelledBy.wellFormed

lemma Body.SpelledBy.wellFormed {b : Body} (h : b.SpelledBy ts)
    (hts : ∀ t ∈ ts, t.word.Sound) : b.WellFormed := by
  rcases h with htype | ⟨-, htype⟩ | ⟨-, -⟩ | ⟨-, hfield, hfields, -⟩ | ⟨-, hfirst, hvariants, -⟩
  · exact htype.wellFormed hts
  · exact htype.wellFormed fun t ht => hts t (by simp [ht])
  · simp [WellFormed]
  · refine List.forall_mem_cons.2 ⟨hfield.wellFormed fun t ht => hts t (by simp [ht]), ?_⟩
    refine hfields.forall_mem (fun t ht => hts t (by simp [ht])) ?_
    rintro f _ ⟨comma, us, rfl, -, hf⟩ hus
    exact hf.wellFormed fun t ht => hus t (by simp [ht])
  · refine ⟨by simp, List.forall_mem_cons.2 ⟨Token.isUpperName (hts _ (by simp)) hfirst, ?_⟩⟩
    exact hvariants.forall_mem (fun t ht => hts t (by simp [ht])) fun _ _ => isUpperName_of_behind

lemma Declaration.SpelledBy.wellFormed {d : Declaration} (h : d.SpelledBy ts)
    (hts : ∀ t ∈ ts, t.word.Sound) : d.WellFormed := by
  obtain ⟨-, hname, -, hbody, hnotes⟩ := h
  refine ⟨Token.isUpperName (hts _ (by simp)) hname,
    hbody.wellFormed fun t ht => hts t (by simp [ht]), ?_⟩
  exact hnotes.forall_mem (fun t ht => hts t (by simp [ht]))
    fun _ _ => Annotation.SpelledBy.wellFormed

lemma Phrase.Export.isPackageName {w : Keyword} {x : Text} (h : Export w x ts)
    (hts : ∀ t ∈ ts, t.word.Sound) : x.IsPackageName := by
  obtain ⟨-, -, hpackage⟩ := h
  exact Token.isPackageName (hts _ (by simp)) hpackage

lemma Module.ContentSpelledBy.wellFormed {m : Module} (h : m.ContentSpelledBy ts)
    (hts : ∀ t ∈ ts, t.word.Sound) : m.WellFormed := by
  obtain ⟨hscala, hpurs, himports, hnotes, hdeclarations⟩ := h
  simp only [List.forall_mem_append] at hts
  obtain ⟨⟨⟨⟨h₁, h₂⟩, h₃⟩, h₄⟩, h₅⟩ := hts
  refine ⟨hscala.isPackageName h₁, hpurs.isPackageName h₂, himports.forall_mem h₃ ?_,
    hnotes.forall_mem h₄ fun _ _ => Annotation.SpelledBy.wellFormed,
    hdeclarations.forall_mem h₅ fun _ _ => Declaration.SpelledBy.wellFormed⟩
  rintro _ _ ⟨head, _, rfl, -, package, rfl, hpackage, rfl⟩ hus
  exact package.isPackageName (hus package (by simp)) hpackage

/-- A primitive type that is read has a reserved word. -/
lemma TypeExpr.SpelledBy.primitive_hasWord {t : TypeExpr} (h : t.SpelledBy ts) :
    ∀ p ∈ t.primitive?, p ∉ Primitive.withoutWord := by
  induction h with
  | @primitive t w p hword hspelling =>
    intro q hq
    obtain rfl : p = q := Option.some.inj hq
    revert hspelling
    cases w <;> cases p <;> decide
  | reference => intro q hq; cases hq
  | array _ _ _ _ ih | maybe _ _ _ _ ih => exact ih

end

/-! ### Modules -/

/-- The tokens of a text come to an end. -/
lemma Text.closed_stream (s : Text) : s.stream.Closed := by
  obtain ⟨us, q, hus, -⟩ := tokensAfter_eq s.cut.ending Position.start s.cut.lexemes
  have hend : ∃ t ∈ s.cut.ending.tokens q, t.kind.isEnd := by
    cases s.cut.ending with
    | clean gap => exact ⟨_, List.mem_cons_self, rfl⟩
    | fault f before read rest => exact ⟨_, List.mem_cons_self, rfl⟩
  obtain ⟨t, ht, hkind⟩ := hend
  refine ⟨t, ?_, hkind⟩
  rw [toList_stream, tokens, Cutting.tokens, hus]
  exact List.mem_append_right us ht

namespace Module

variable {source : Text} {m : Module}

/-- What is read is spelled by sound tokens, and not nested too deep. -/
lemma exists_content_of_parse (h : parse source = .ok m) :
    ∃ us, m.ContentSpelledBy us ∧ (∀ t ∈ us, t.word.Sound) ∧
      m.NestedWithin Machine.nesting := by
  obtain ⟨⟨us, stop, rest, hs, -, -, hm⟩, hnest⟩ := spelledBy_of_ofTokens source.closed_stream h
  refine ⟨us, hm, fun t ht => source.sound_of_mem_tokens t ?_, hnest⟩
  rw [← source.toList_stream, hs]
  exact List.mem_append_left _ ht

lemma wellFormed_of_parse (h : parse source = .ok m) : m.WellFormed := by
  obtain ⟨us, hm, hwords, -⟩ := exists_content_of_parse h
  exact hm.wellFormed hwords

/-- What a file holds is what its text holds, but for the name. -/
lemma exists_parse_of_parseFile {path : Text} {extensions : List Text}
    (h : parseFile path source extensions = .ok m) :
    ∃ read, parse source = .ok read ∧ m = read.withName (path.logicalName extensions) := by
  unfold parseFile at h
  rcases hread : parse source with e | read
  · rw [hread] at h
    cases h
  · rw [hread] at h
    cases h
    exact ⟨read, rfl, rfl⟩

lemma primitives_haveWord {us : List Token} (h : m.ContentSpelledBy us) :
    ∀ d ∈ m.declarations, ∀ t ∈ d.body.types, ∀ p ∈ t.primitive?, p ∉ Primitive.withoutWord := by
  intro d hd t ht
  obtain ⟨-, us, -, hus, -⟩ := h.standsIn hd t ht
  exact hus.primitive_hasWord

/-! ### Other machines -/

/-- What is read on one machine is read on every other one that gets through its types. -/
lemma parse_on (h : parse source = .ok m) (room : Machine) (hnest : m.NestedWithin room.nesting) :
    @parse room source = .ok m := by
  obtain ⟨⟨us, stop, rest, hs, -, hstop, hm⟩, -⟩ := spelledBy_of_ofTokens source.closed_stream h
  exact ofTokens_of_spelledBy hs hstop hm hnest

/-- What is read on one machine is refused on others for its nesting only. -/
lemma problem_on (h : parse source = .ok m) (room : Machine) {e : SyntaxError}
    (he : @parse room source = .error e) : e.problem = .tooDeep := by
  obtain ⟨⟨us, stop, rest, hs, -, hstop, hm⟩, -⟩ := spelledBy_of_ofTokens source.closed_stream h
  exact problem_of_spelledBy hs hstop hm he

lemma NestedWithin.mono {limit bound : ℕ} (h : m.NestedWithin limit) (hle : limit ≤ bound) :
    m.NestedWithin bound :=
  fun d hd t ht => (h d hd t ht).trans hle

/-- A machine that gets through all that the given one does, and through the types of a module. -/
lemma exists_room (here : Machine) (m : Module) :
    ∃ room : Machine, here.nesting ≤ room.nesting ∧ m.NestedWithin room.nesting := by
  let nestings := (m.declarations.flatMap fun d => d.body.types).map TypeExpr.nesting
  refine ⟨{ here with
    nesting := here.nesting + nestings.sum
    nesting_pos := Nat.add_pos_left here.nesting_pos _ }, Nat.le_add_right _ _, ?_⟩
  intro d hd t ht
  have hmem : t.nesting ∈ nestings := List.mem_map_of_mem (List.mem_flatMap.2 ⟨d, hd, ht⟩)
  have hle : t.nesting ≤ nestings.sum := List.le_sum_of_mem hmem
  exact hle.trans (Nat.le_add_left _ _)

/-- The canonical text of a well-formed module is read where the reader gets through its types. -/
lemma parse_render_eq_ok_iff [Machine] (h : m.WellFormed) (form : Formatter) :
    (∃ read, parse (m.render form) = .ok read) ↔ m.NestedWithin Machine.nesting := by
  refine ⟨?_, fun hnest => ?_⟩
  · rintro ⟨read, hread⟩
    obtain ⟨-, -, -, hwithin⟩ := exists_content_of_parse hread
    -- where there is room for the module, what is read is the module up to what is not written
    obtain ⟨room, hle, hnest⟩ := exists_room ‹Machine› m
    obtain ⟨read', hread', heq⟩ := @exists_parse_render room m h hnest form
    obtain rfl : read = read' :=
      Except.ok.inj ((parse_on hread room (hwithin.mono hle)).symm.trans hread')
    rwa [← nestedWithin_asWritten, ← nestedWithin_unplaced, ← heq, nestedWithin_unplaced]
  · obtain ⟨read, hread, -⟩ := exists_parse_render h hnest form
    exact ⟨read, hread⟩

/-- The round trip of a well-formed module ends where it began if the reader gets through its
types, and fails otherwise. -/
lemma roundTrip_eq_ok_iff [Machine] (h : m.WellFormed) (form : Formatter) {trip : RoundTrip} :
    m.roundTrip form = .ok trip ↔
      m.NestedWithin Machine.nesting ∧ trip = ⟨m.render form, m.render form⟩ := by
  constructor
  · intro htrip
    have hnest : m.NestedWithin Machine.nesting := by
      rw [← parse_render_eq_ok_iff h form]
      cases hread : parse (m.render form) with
      | ok read => exact ⟨read, rfl⟩
      | error e =>
        rw [roundTrip, hread] at htrip
        cases htrip
    exact ⟨hnest, Except.ok.inj (htrip.symm.trans (roundTrip_eq h hnest form))⟩
  · rintro ⟨hnest, rfl⟩
    exact roundTrip_eq h hnest form

/-- Nothing but its nesting makes the round trip of a well-formed module fail. -/
lemma problem_of_roundTrip [Machine] (h : m.WellFormed) (form : Formatter) {e : SyntaxError}
    (he : m.roundTrip form = .error e) : e.problem = .tooDeep := by
  -- of a round trip, only reading can fail
  have hparse : parse (m.render form) = .error e := by
    cases hparse : parse (m.render form) with
    | ok read =>
      rw [roundTrip, hparse] at he
      cases he
    | error e' =>
      rw [roundTrip, hparse] at he
      exact congrArg Except.error (Except.error.inj he)
  obtain ⟨room, -, hnest⟩ := exists_room ‹Machine› m
  obtain ⟨read, hread, -⟩ := @exists_parse_render room m h hnest form
  exact @problem_on room _ read hread _ e hparse

end Module

/-! ### The command -/

namespace Command

variable {m : Module}

/-- For a well-formed module, the command for its round trip only reports. -/
lemma roundTripModule_eq (h : m.WellFormed) (hnest : m.NestedWithin Machine.nesting)
    (form : Formatter) (file : Text) :
    ∃ read, roundTripModule form file m = (do
      reportRead (file ++ " (rendered)") read
      report "duet.roundtrip" ("round trip of " ++
        (if m.name = [] then file ++ " (rendered)" else m.name) ++ ": " ++ "stable")
      report "duet.cli" (file ++ " round-trips")
      return true) := by
  obtain ⟨read, hread, -⟩ := Module.exists_parse_render h hnest form
  have hstable : RoundTrip.stable ⟨m.render form, m.render form⟩ = true := by
    simp [RoundTrip.stable]
  refine ⟨read, ?_⟩
  unfold roundTripModule
  simp only [Module.roundTrip_eq h hnest form, hread, hstable, if_true]

/-- The command ends well, and without reports it leaves the session as it was. -/
lemma exists_roundTripModule (h : m.WellFormed) (hnest : m.NestedWithin Machine.nesting)
    (form : Formatter) (file : Text) (session : Session) :
    ∃ session', roundTripModule form file m session = .ok true session' ∧
      (session.verbose = false → session' = session) := by
  obtain ⟨read, heq⟩ := roundTripModule_eq h hnest form file
  obtain ⟨s₁, h₁, hquiet₁⟩ := exists_report "duet.parser" _ session
  obtain ⟨s₂, h₂, hquiet₂⟩ := exists_report "duet.roundtrip" _ s₁
  obtain ⟨s₃, h₃, hquiet₃⟩ := exists_report "duet.cli" _ s₂
  refine ⟨s₃, ?_, ?_⟩
  · rw [heq, reportRead, bind_apply h₁, bind_apply h₂, bind_apply h₃]
    rfl
  · intro hquiet
    obtain rfl := hquiet₁ hquiet
    obtain rfl := hquiet₂ hquiet
    exact hquiet₃ hquiet

end Command

namespace Module

variable {source : Text} {m : Module}

/-- A module that was read from a text or a file is well-formed, has no primitive type without a
reserved word, and is not nested too deep.  On every machine, at every indentation that can be
written there, its round trip does not fail if and only if the reader gets through its types, as it
did where the module was read; it fails for their nesting only, and otherwise it is stable.  Where
the module was read, the command for the round trip ends well without a complaint. -/
theorem sound_of_parse
    (h : parse source = .ok m ∨ ∃ path extensions, parseFile path source extensions = .ok m) :
    m.WellFormed ∧
    (∀ d ∈ m.declarations, ∀ t ∈ d.body.types, ∀ p ∈ t.primitive?, p ∉ Primitive.withoutWord) ∧
    m.NestedWithin Machine.nesting ∧
    (∀ [room : Machine] (n : Int), Text.IsWidth n → ∃ form, Formatter.ofIndent n = .ok form ∧
      ((∃ trip, m.roundTrip form = .ok trip) ↔ m.NestedWithin room.nesting) ∧
      (∀ e, m.roundTrip form = .error e → e.problem = .tooDeep) ∧
      ∀ trip, m.roundTrip form = .ok trip → trip.stable = true) ∧
    ∀ form file session, ∃ session',
      Command.roundTripModule form file m session = .ok true session' ∧
        (session.verbose = false → session' = session) := by
  have hsound : m.WellFormed ∧ (∀ d ∈ m.declarations, ∀ t ∈ d.body.types, ∀ p ∈ t.primitive?,
      p ∉ Primitive.withoutWord) ∧ m.NestedWithin Machine.nesting := by
    rcases h with h | ⟨path, extensions, h⟩
    · obtain ⟨us, hus, hwords, hnest⟩ := exists_content_of_parse h
      exact ⟨hus.wellFormed hwords, primitives_haveWord hus, hnest⟩
    · obtain ⟨read, hread, rfl⟩ := exists_parse_of_parseFile h
      obtain ⟨us, hus, hwords, hnest⟩ := exists_content_of_parse hread
      have hwell := hus.wellFormed hwords
      have hprimitives := primitives_haveWord hus
      -- nothing of this looks at the name
      exact ⟨⟨hwell.scala, hwell.purs, hwell.imports, hwell.annotations, hwell.declarations⟩,
        hprimitives, hnest⟩
  obtain ⟨hwell, hprimitives, hnest⟩ := hsound
  refine ⟨hwell, hprimitives, hnest, fun n hn => ?_, Command.exists_roundTripModule hwell hnest⟩
  obtain ⟨form, hform⟩ := Formatter.exists_ofIndent hn
  refine ⟨form, hform, ?_, fun e => problem_of_roundTrip hwell form, fun trip htrip => ?_⟩
  · simp [roundTrip_eq_ok_iff hwell]
  · obtain ⟨-, rfl⟩ := (roundTrip_eq_ok_iff hwell _).1 htrip
    simp [RoundTrip.stable]

/-- The module with a single type, under a name. -/
def ofType (t : TypeExpr) : Module := ⟨[], ⟨"a", "b", []⟩, [], [], [⟨"T", .alias t, []⟩]⟩

lemma wellFormed_ofType {t : TypeExpr} (h : t.WellFormed) : (ofType t).WellFormed := by
  refine ⟨?_, ?_, by simp [ofType], by simp [ofType], fun d hd => ?_⟩
  · show Text.IsPackageName "a"
    decide
  · show Text.IsPackageName "b"
    decide
  · obtain rfl := List.mem_singleton.1 hd
    refine ⟨?_, h, by simp⟩
    show Text.IsUpperName "T"
    decide

lemma nestedWithin_ofType {t : TypeExpr} {limit : ℕ} :
    (ofType t).NestedWithin limit ↔ t.nesting ≤ limit := by
  simp [ofType, NestedWithin, Body.NestedWithin, Body.types]

/-- The module of a small file is well-formed, and its round trip is stable. -/
theorem sound_of_parse_small_file :
    let _ : Machine := .usual
    ∃ m, parseFile "Billing.duet" "scala: a\npurs: b\n\ntype T : Int\n" knownExtensions = .ok m ∧
      m.WellFormed ∧ ∃ form, Formatter.ofIndent 4 = .ok form ∧
        ∃ trip, m.roundTrip form = .ok trip ∧ trip.stable = true := by
  intro _
  have hnest : (ofType (.primitive .int)).NestedWithin Machine.nesting := by decide
  obtain ⟨read, hread, -⟩ :=
    exists_parse_render (wellFormed_ofType (t := .primitive .int) trivial) hnest .usual
  have htext : (ofType (.primitive .int)).render .usual =
      "scala: a\npurs: b\n\ntype T : Int\n" := by
    decide
  have hfile : parseFile "Billing.duet" "scala: a\npurs: b\n\ntype T : Int\n" knownExtensions =
      .ok (read.withName (Text.logicalName "Billing.duet" knownExtensions)) := by
    rw [parseFile, ← htext, hread]
    rfl
  obtain ⟨hm, -, hnest, htrip, -⟩ := sound_of_parse (.inr ⟨_, _, hfile⟩)
  obtain ⟨form, hform, hgets, -, hstable⟩ := htrip 4 (by decide)
  obtain ⟨trip, htrip⟩ := hgets.2 hnest
  exact ⟨_, hfile, hm, form, hform, trip, htrip, hstable trip htrip⟩

/-- A module is read of which no text can be written at an indentation of more than 64 bits, and of
which the round trip fails on a machine where the reader does not get through an array. -/
theorem sound_of_parse_elsewhere :
    let _ : Machine := .usual
    ∃ m, parse "scala: a\npurs: b\n\ntype T : Array<Int>\n" = .ok m ∧
      (¬ ∃ form, Formatter.ofIndent 0x8000000000000000 = .ok form) ∧
      ∃ room : Machine, ∀ form, ¬ ∃ trip, @roundTrip room form m = .ok trip := by
  intro _
  have hnest : (ofType (.array (.primitive .int))).NestedWithin Machine.nesting := by decide
  obtain ⟨read, hread, heq⟩ :=
    exists_parse_render (wellFormed_ofType (t := .array (.primitive .int)) trivial) hnest .usual
  have htext : (ofType (.array (.primitive .int))).render .usual =
      "scala: a\npurs: b\n\ntype T : Array<Int>\n" := by
    decide
  rw [htext] at hread
  let small : Machine := { Machine.usual with nesting := 1, nesting_pos := by decide }
  refine ⟨read, hread, Formatter.ofIndent_ne_ok (by decide), small, ?_⟩
  rintro form ⟨trip, htrip⟩
  have hwithin := ((@roundTrip_eq_ok_iff _ small (wellFormed_of_parse hread) form _).1 htrip).1
  rw [← nestedWithin_unplaced, heq, nestedWithin_unplaced, nestedWithin_asWritten] at hwithin
  exact absurd (nestedWithin_ofType.1 hwithin) (by decide)

end Module

end Idl
