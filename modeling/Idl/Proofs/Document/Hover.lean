/-
# What is shown for a place

The word under the cursor is found in the code points of a line, without looking at the tokens.
For a name of the module itself it is the whole token, wherever the token stands
(`Text.wordAt_of_leads`), so the declaration of that name is shown (`Workspace.hover_of_localName`).
For the last segment of a reference with a qualifier it goes on over a dot only if nothing at all
stands on either side of it (`Text.wordAt_of_dotted`); otherwise a declaration of that name is shown
although another module is meant (`Workspace.hover_of_qualified`).
-/
import Idl.Proofs.Document.Word
import Idl.Proofs.Grammar.Landmarks
import Idl.Proofs.Workspace.Latest

namespace Idl

variable {_ : Machine}

/-- What is shown for a declaration: its canonical text, and its description unless that is
empty. -/
def Declaration.shown (d : Declaration) : Text :=
  "```duet\n" ++ d.render .usual ++ "\n```" ++
    match d.docText with
    | none | some [] => []
    | some doc => "\n\n" ++ doc

/-- The token names a type of the module itself. -/
inductive Module.LocalName (m : Module) (ts : List Token) (t : Token) : Prop
  /-- The name of a declaration, which stands behind the reserved word `type`. -/
  | declared {a : Token} (hkind : t.kind = .upperName) (ha : a.kind = .keyword .type)
      (hat : [a, t] <:+: ts)
  /-- The only segment of a reference. -/
  | referred (hkind : t.kind = .upperName) (ht : t ∈ ts)
      (href : .reference t.span.first none t.value ∈ m.leaves)

variable {a dot last segment t : Token} {e : TypeExpr} {i : Nat} {m : Module} {name q : Text}
  {p : Position} {rs : List Request} {s uri : Text} {us vs : List Token}

/-! ### Names among the tokens -/

lemma Text.isDottedPoint_eq_false {k : Mark} (h : k ≠ .dot) :
    isDottedPoint (.scalar k.symbol) = false := by
  cases k <;> first | decide | exact absurd rfl h

/-- The word at a name is the name, if no dot stands directly in front of it. -/
lemma Text.wordAt_of_leads (h : s.tokens = us ++ a :: t :: vs) (hk : t.kind = .upperName)
    (ha : a.kind.leads) :
    ∃ before after, s = before ++ t.value ++ after ∧ t.StandsAt before t.value ∧
      ∀ i ≤ t.value.length, s.wordAt before.lineBehind (before.offsetBehind + i) = t.value := by
  obtain ⟨before, first, gap, piece, after, rfl, hpair⟩ :=
    exists_neighbours h (by simp [hk]) (by simp [hk])
  obtain ⟨rfl, halpha⟩ := hpair.written.of_isName (by rw [hk]; rfl)
  have hstops : after.StopsAt CodePoint.isAlphanumeric := by
    simpa [hk, TokenKind.continuedBy] using hpair.stops
  have hends : EndsOff isDottedPoint (before ++ first ++ gap) := by
    refine hpair.endsOff (exists_mem_head? hpair.stands.ne_nil halpha) (fun _ hc => hc) ?_
    intro _ k hk
    refine isDottedPoint_eq_false fun hdot => ?_
    rw [hk, hdot] at ha
    cases ha
  exact ⟨_, after, rfl, hpair.stands,
    fun i hi => wordAt_of_endsOff hpair.stands.ne_nil halpha hstops hi hends⟩

/-- Two segments with a dot between them, and what stands on both sides of the dot. -/
lemma Text.exists_dotted (h : s.tokens = us ++ segment :: dot :: last :: vs)
    (hsegment : segment.kind = .upperName) (hdot : dot.kind = .mark .dot)
    (hlast : last.kind = .upperName) : ∃ before gap gap' after rest,
      s = before ++ segment.value ++ gap ++ [.scalar '.'] ++ gap' ++ last.value ++ after ∧
        segment.Neighbours dot before segment.value gap [.scalar '.'] rest ∧
        dot.Neighbours last (before ++ segment.value ++ gap) [.scalar '.'] gap' last.value after ∧
        (∀ c ∈ segment.value, c.isAlphanumeric) ∧ ∀ c ∈ last.value, c.isAlphanumeric := by
  obtain ⟨before, first, gap, piece, rest, hs, hpair⟩ :=
    exists_neighbours h (by simp [hdot]) (by simp [hdot])
  have hsplit := h.trans (List.append_cons us segment _)
  obtain ⟨before', first', gap', piece', after, hs', hpair'⟩ :=
    exists_neighbours hsplit (by simp [hlast]) (by simp [hlast])
  -- the dot stands at one place only
  obtain rfl : before' = before ++ first ++ gap :=
    eq_of_place_eq (s := s) ⟨first' ++ gap' ++ piece' ++ after, by simp [hs']⟩
      ⟨piece ++ rest, by simp [hs]⟩ (hpair'.firstStands.first.symm.trans hpair.stands.first)
  obtain ⟨rfl, halpha⟩ := hpair.firstWritten.of_isName (by rw [hsegment]; rfl)
  obtain ⟨rfl, halpha'⟩ := hpair'.written.of_isName (by rw [hlast]; rfl)
  have hmark {w : Text} (hw : dot.word.WrittenAs w) : w = [.scalar '.'] := by
    rw [Token.word, hdot] at hw
    exact hw.of_mark.2
  obtain rfl := hmark hpair.written
  obtain rfl := hmark hpair'.firstWritten
  exact ⟨before, gap, gap', after, rest, hs', hpair, hpair', halpha, halpha'⟩

/-- The word at the last of two segments is that segment, unless the dot between them touches both
of them; then there is a dot in it. -/
lemma Text.wordAt_of_dotted (h : s.tokens = us ++ segment :: dot :: last :: vs)
    (hsegment : segment.kind = .upperName) (hdot : dot.kind = .mark .dot)
    (hlast : last.kind = .upperName) :
    ∃ before after, s = before ++ last.value ++ after ∧ last.StandsAt before last.value ∧
      ∀ i ≤ last.value.length,
        let word := s.wordAt before.lineBehind (before.offsetBehind + i)
        if segment.Touches dot ∧ dot.Touches last then .scalar '.' ∈ word
        else word = last.value := by
  obtain ⟨before, gap, gap', after, rest, rfl, hpair, hpair', halpha, halpha'⟩ :=
    exists_dotted h hsegment hdot hlast
  have hne := hpair'.stands.ne_nil
  have hstops : after.StopsAt CodePoint.isAlphanumeric := by
    simpa [hlast, TokenKind.continuedBy] using hpair'.stops
  refine ⟨_, after, rfl, hpair'.stands, fun i hi => ?_⟩
  simp only [hpair.touches_iff, hpair'.touches_iff]
  by_cases hgap' : gap' = []
  · subst hgap'
    rw [List.append_nil]
    by_cases hgap : gap = []
    · obtain ⟨front, c, hc⟩ :=
        (List.eq_nil_or_concat' segment.value).resolve_left hpair.firstStands.ne_nil
      have hdotted := dot_mem_wordAt hne halpha' hstops hi (halpha c (by simp [hc]))
        (before ++ front)
      rw [if_pos ⟨hgap, rfl⟩, hgap, hc]
      simpa using hdotted
    · rw [if_neg fun htouch => hgap htouch.1]
      exact wordAt_of_dot hne halpha' hstops hi (hpair.endsOff_of_gap hgap fun _ hc => hc)
  · rw [if_neg fun htouch => hgap' htouch.2]
    exact wordAt_of_endsOff hne halpha' hstops hi (hpair'.endsOff_of_gap hgap' fun _ hc => hc)

/-! ### Names of the module itself -/

/-- In front of a name of the module itself stands no dot. -/
lemma Module.LocalName.exists_leads (h : m.LocalName s.tokens t) (hm : parse s = .ok m) :
    t.kind = .upperName ∧ ∃ us a vs, s.tokens = us ++ a :: t :: vs ∧ a.kind.leads := by
  rcases h with ⟨hkind, ha, us, vs, hat⟩ | ⟨hkind, ht, href⟩
  · exact ⟨hkind, us, _, vs, by simpa using hat.symm, by rw [ha]; rfl⟩
  · obtain ⟨ts, stop, htokens, hcontent, hwritten⟩ := exists_isWritten_of_parse hm
    obtain ⟨a, block, ha, hblock, us, vs, hinfix⟩ := hcontent.standsIn_of_mem_leaves href
    obtain ⟨t', rfl, hkind', hfirst, -⟩ := hblock.exists_of_unqualified fun u hu hk => by
      obtain ⟨piece, hpiece⟩ := hwritten u (by simp [← hinfix, hu])
      obtain ⟨rfl, -⟩ := hpiece.of_isName (by rw [hk]; rfl)
      exact hpiece.ne_nil
    -- the token of the reference is the only one that begins at its position
    have hsplit : s.tokens = (us ++ [a]) ++ t' :: (vs ++ [stop]) := by simp [htokens, ← hinfix]
    obtain ⟨us', vs', hsplit'⟩ := List.append_of_mem ht
    obtain ⟨-, rfl, -⟩ := Text.split_inj_of_first hsplit hsplit' hfirst (by simp [hkind'])
      (by simp [hkind])
    exact ⟨hkind, us, a, _, by simpa using hsplit, ha⟩

/-! ### What is shown -/

lemma Document.hover_ofText (h : Module.parse s = .ok m) (line : Int) (offset : Nat) :
    (ofText s).hover line offset = (m.find? (s.wordAt line offset)).map Declaration.shown := by
  have hmodule : (ofText s).module? = some m := congrArg Except.toOption h
  unfold hover
  rw [hmodule]
  show (m.find? (s.wordAt line offset)).bind _ = _
  cases m.find? (s.wordAt line offset) with
  | none => rfl
  | some d =>
    simp only [Option.bind_some, Option.map_some, Declaration.shown]
    rcases d.docText with _ | _ | ⟨c, r⟩ <;> simp

lemma Module.find?_eq_none_of_dot_mem (h : parse s = .ok m) (hdot : .scalar '.' ∈ name) :
    m.find? name = none := by
  refine List.find?_eq_none.2 fun d hd hname => ?_
  have hwell := ((wellFormed_of_parse h).declarations d hd).1
  rw [of_decide_eq_true hname] at hwell
  exact Text.dot_not_mem hwell.isAlphanumeric hdot

namespace Workspace

lemma hover_latest (hopen : Request.latest uri rs = some s) (line : Int) (offset : Nat) :
    ((empty.handleAll rs).2.handle (.hover uri line offset)).1 =
      .hover ((Document.ofText s).hover line offset) := by
  have hfind : (empty.handleAll rs).2.find? uri = some (.ofText s) := by
    rw [find?_latest, hopen]
    rfl
  rw [handle, hfind]
  rfl

/-- At a name of the module itself, up to the place behind it, the first declaration of that name is
shown, if there is one. -/
theorem hover_of_localName (hopen : Request.latest uri rs = some s) (h : Module.parse s = .ok m)
    (hplain : s.HasPlainBreaks) (ht : m.LocalName s.tokens t) (hi : i ≤ t.value.length) :
    ((empty.handleAll rs).2.handle (.hover uri (t.span.first.line - 1)
        (t.span.first.column.toNat - 1 + i))).1 =
      .hover ((m.declarations.find? (·.name = t.value)).map Declaration.shown) := by
  obtain ⟨hkind, us, a, vs, htokens, ha⟩ := ht.exists_leads h
  obtain ⟨before, after, hs, hstands, hword⟩ := Text.wordAt_of_leads htokens hkind ha
  have halpha : ∀ c ∈ t.value, c.isAlphanumeric :=
    (t.isUpperName (s.sound_of_mem_tokens t (by simp [htokens])) hkind).isAlphanumeric
  have hplain' : Text.HasPlainBreaks (before ++ t.value) := by
    rw [hs] at hplain
    refine hplain.of_append fun c hc => ?_
    rw [List.getLast?_append_of_ne_nil _ hstands.ne_nil] at hc
    exact CodePoint.keepsLine_iff.1
      (CodePoint.keepsLine_of_isAlphanumeric (halpha c (List.mem_of_mem_getLast? hc)))
  have hplace := Text.place_of_hasPlainBreaks hstands.ne_nil hstands.line hplain'
  have hline : t.span.first.line - 1 = before.lineBehind := by
    rw [hstands.first, hplace]
    simp only
    omega
  have hoffset : t.span.first.column.toNat - 1 = before.offsetBehind := by
    rw [hstands.first, hplace]
    simp only
    omega
  rw [hover_latest hopen, Document.hover_ofText h, hline, hoffset, hword i hi]
  rfl

/-- Behind the reference of `D` at the end of the line, the declaration of `B` is shown. -/
theorem hover_of_localName_oneLine :
    let _ : Machine := .usual
    let t : Token := ⟨.upperName, "B", .point ⟨1, 51⟩⟩
    let rs : List Request := [.opened "u" Module.oneLine]
    (Request.latest "u" rs = some Module.oneLine ∧
      Module.parse Module.oneLine = .ok Module.ofOneLine ∧ Module.oneLine.HasPlainBreaks ∧
      Module.ofOneLine.LocalName Module.oneLine.tokens t ∧ 1 ≤ t.value.length) ∧
    ((empty.handleAll rs).2.handle (.hover "u" 0 51)).1 =
      .hover (some "```duet\ntype B : Int\n```") := by
  intro _ t rs
  have hlatest : Request.latest "u" rs = some Module.oneLine := by decide
  have hbreaks : ∀ c ∈ Module.oneLine, c.isLineBreak = false := by decide
  have hplain : Module.oneLine.HasPlainBreaks := fun x c y hxy hc => by
    rw [hbreaks c (by simp [hxy])] at hc
    cases hc
  have ht : t ∈ Module.oneLine.tokens := by
    rw [Module.tokens_oneLine]
    decide
  have hname : Module.ofOneLine.LocalName Module.oneLine.tokens t :=
    .referred rfl ht (by decide)
  have hlength : 1 ≤ t.value.length := by decide
  have hshown := hover_of_localName hlatest Module.parse_oneLine hplain hname hlength
  have hfound : (Module.ofOneLine.declarations.find? (·.name = t.value)).map Declaration.shown =
      some "```duet\ntype B : Int\n```" := by decide
  rw [hfound] at hshown
  exact ⟨⟨hlatest, Module.parse_oneLine, hplain, hname, hlength⟩, hshown⟩

/-- At the last segment of a reference with a qualifier nothing is shown if its dot touches both
segments; otherwise the declaration of the module that has the name of the segment is shown. -/
theorem hover_of_qualified (hopen : Request.latest uri rs = some s) (h : Module.parse s = .ok m)
    (href : .reference p (some q) name ∈ m.leaves) :
    ∃ us front segment dot last vs before after,
      s.tokens = us ++ front ++ segment :: dot :: last :: vs ∧
      (TypeExpr.reference p (some q) name).SpelledBy (front ++ [segment, dot, last]) ∧
      s = before ++ name ++ after ∧ last.StandsAt before name ∧
      ∀ i ≤ name.length,
        ((empty.handleAll rs).2.handle
          (.hover uri before.lineBehind (before.offsetBehind + i))).1 =
        .hover (if segment.Touches dot ∧ dot.Touches last then none
          else (m.declarations.find? (·.name = name)).map Declaration.shown) := by
  obtain ⟨ts, stop, htokens, hcontent, -⟩ := Module.exists_isWritten_of_parse h
  obtain ⟨a, block, -, hblock, us, vs, hinfix⟩ := hcontent.standsIn_of_mem_leaves href
  obtain ⟨front, segment, dot, last, rfl, hsegment, hdot, hlast, rfl⟩ :=
    hblock.exists_of_qualified
  have hsplit : s.tokens = us ++ [a] ++ front ++ segment :: dot :: last :: (vs ++ [stop]) := by
    simp [htokens, ← hinfix]
  obtain ⟨before, after, hs, hstands, hword⟩ :=
    Text.wordAt_of_dotted hsplit hsegment hdot hlast
  refine ⟨_, front, segment, dot, last, _, before, after, hsplit, hblock, hs, hstands,
    fun i hi => ?_⟩
  rw [hover_latest hopen, Document.hover_ofText h]
  have hword := hword i hi
  split at hword
  · next htouch =>
    rw [if_pos htouch, Module.find?_eq_none_of_dot_mem h hword]
    rfl
  · next htouch =>
    rw [if_neg htouch, hword]
    rfl

/-- The reference of `C` in the module on one line. -/
theorem hover_of_qualified_oneLine :
    let _ : Machine := .usual
    let s : Text := Module.oneLine
    let rs : List Request := [.opened "u" s]
    let e : TypeExpr := .reference ⟨1, 38⟩ (some "A") "B"
    (Request.latest "u" rs = some s ∧ Module.parse s = .ok Module.ofOneLine ∧
      e ∈ Module.ofOneLine.leaves) ∧
    ∃ us front segment dot last vs before after,
      s.tokens = us ++ front ++ segment :: dot :: last :: vs ∧
      e.SpelledBy (front ++ [segment, dot, last]) ∧
      s = before ++ "B" ++ after ∧ last.StandsAt before "B" ∧
      ∀ i ≤ 1,
        ((empty.handleAll rs).2.handle
          (.hover "u" before.lineBehind (before.offsetBehind + i))).1 =
        .hover (if segment.Touches dot ∧ dot.Touches last then none
          else some "```duet\ntype B : Int\n```") := by
  intro _ s rs e
  have hlatest : Request.latest "u" rs = some s := by decide
  have he : e ∈ Module.ofOneLine.leaves := by decide
  exact ⟨⟨hlatest, Module.parse_oneLine, he⟩, hover_of_qualified hlatest Module.parse_oneLine he⟩

/-- With a blank on each side of the dot, at the last segment of the reference of `C` the
declaration of `B` is shown, although the reference is to another module. -/
theorem hover_of_spaced_dot :
    let _ : Machine := .usual
    Module.parse Module.oneLine = .ok Module.ofOneLine ∧
    .reference ⟨1, 38⟩ (some "A") "B" ∈ Module.ofOneLine.leaves ∧
    Module.oneLine = "scala:a purs:b<x y>type B:Int type C:A . " ++ "B" ++ " type D:B" ∧
    ((empty.handleAll [.opened "u" Module.oneLine]).2.handle (.hover "u" 0 41)).1 =
      .hover (some "```duet\ntype B : Int\n```") := by
  intro _
  have hlatest : Request.latest "u" [.opened "u" Module.oneLine] = some Module.oneLine := by decide
  have hword : Module.oneLine.wordAt 0 41 = "B" := by decide
  refine ⟨Module.parse_oneLine, by decide, rfl, ?_⟩
  rw [hover_latest hlatest, Document.hover_ofText Module.parse_oneLine, hword]
  have hshown : (Module.ofOneLine.find? "B").map Declaration.shown =
      some "```duet\ntype B : Int\n```" := by decide
  exact congrArg Reply.hover hshown

end Workspace

end Idl
