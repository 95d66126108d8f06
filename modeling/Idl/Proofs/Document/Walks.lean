/-
# The walks of an outline

The maps of an outline come from three walks along the tokens: over neighbours, over the places
where declarations begin, and over all tokens with a list for the members of each declaration.
Where the tokens end with the end of the input, what they find is told by the sections: of every
name each map keeps what the first section of that name tells (`Outline.names_eq`,
`Outline.wholes_eq`, `Outline.parts_eq`).
-/
import Idl.Document
import Idl.Proofs.Document.Sections
import Idl.Proofs.Text.Entries
import Idl.Proofs.Token.Spans
import Mathlib.Data.List.Nodup

namespace Idl

namespace Outline

/-- The first section of each name, under its name. -/
def firstSections (tokens : List Token) : List (Text × Section) :=
  firstOfEach ((sections tokens).map fun s => (s.name.value, s))

/-- The tokens end with the end of the input. -/
def Ended (tokens : List Token) : Prop :=
  ∃ us stop, tokens = us ++ [stop] ∧ stop.kind = .endOfInput

variable {α β : Type} {later : List Nat} {b stop t u : Token} {next start : Nat}
  {rest tokens us vs : List Token} {ps : List Span} {ss : List Section} {w : Walk} {x : Text}

/-! ### First entries -/

lemma firstOfEach_sublist (es : List (Text × α)) : (firstOfEach es).Sublist es := by
  induction es with
  | nil => exact .slnil
  | cons e es ih => exact (List.filter_sublist.trans ih).cons_cons e

/-- Which entries are kept does not depend on the values under the keys. -/
lemma firstOfEach_map (f : α → β) (es : List (Text × α)) :
    firstOfEach (es.map fun e => (e.1, f e.2)) = (firstOfEach es).map fun e => (e.1, f e.2) := by
  induction es with
  | nil => rfl
  | cons e es ih =>
    rw [List.map_cons, firstOfEach, ih, firstOfEach, List.map_cons, List.filter_map]
    rfl

lemma nodup_firstOfEach (es : List (Text × α)) : ((firstOfEach es).map Prod.fst).Nodup := by
  induction es with
  | nil => exact List.nodup_nil
  | cons e es ih =>
    rw [firstOfEach, List.map_cons, List.nodup_cons]
    refine ⟨?_, ih.sublist (List.filter_sublist.map Prod.fst)⟩
    simp [List.mem_map, List.mem_filter]

/-- The first entry of a key is the valid one. -/
lemma lookup_firstOfEach (es : List (Text × α)) (x : Text) :
    (firstOfEach es).lookup x = es.lookup x := by
  induction es with
  | nil => rfl
  | cons e es ih =>
    obtain ⟨y, a⟩ := e
    by_cases hx : x = y
    · rw [firstOfEach, hx, List.lookup_cons_self, List.lookup_cons_self]
    · rw [firstOfEach, lookup_cons_of_ne hx, lookup_cons_of_ne hx, lookup_filter_ne,
        if_neg (Ne.symm hx), ih]

/-! ### Names -/

/-- Declarations begin where the sections do. -/
lemma filterMap_beginsAt (f : Token → α) (tokens : List Token) :
    (tokens.zip tokens.tail).filterMap (fun p => if beginsAt p.1 p.2 then some (f p.2) else none) =
      (sections tokens).map fun s => f s.name := by
  rw [sections]
  fun_induction split tokens with
  | case1 | case2 => rfl
  | case3 t u rest h following ss hsplit ih =>
    rw [hsplit] at ih
    rw [List.tail_cons, List.zip_cons_cons, List.filterMap_cons, if_pos h, List.map_cons]
    cases rest with
    | nil => exact congrArg (f u :: ·) ih
    | cons v rest =>
      rw [List.zip_cons_cons, List.filterMap_cons, if_neg (by simp [not_beginsAt_name h])]
      exact congrArg (f u :: ·) ih
  | case4 t u rest h front ss hsplit ih =>
    rw [hsplit] at ih
    rw [List.tail_cons, List.zip_cons_cons, List.filterMap_cons, if_neg h]
    exact ih

lemma names_eq (tokens : List Token) : nameSpans tokens =
    (firstSections tokens).map fun e => (e.1, e.2.name.span) := by
  have hstarts := filterMap_beginsAt (fun u => (u.value, u.span)) tokens
  rw [firstSections, ← firstOfEach_map fun s : Section => s.name.span, List.map_map]
  exact congrArg firstOfEach hstarts

/-! ### Declarations -/

lemma begins_succ (t : Token) (tokens : List Token) (i : Nat) :
    begins (t :: tokens) (i + 1) = begins tokens i := by
  simp only [begins, List.getElem?_cons_succ]

lemma starts_cons_cons (t u : Token) (rest : List Token) : starts (t :: u :: rest) =
    (if beginsAt t u then [0] else []) ++ (starts (u :: rest)).map (· + 1) := by
  have hlater : (begins (t :: u :: rest) ∘ Nat.succ) = begins (u :: rest) :=
    funext fun i => begins_succ t (u :: rest) i
  have hfirst : begins (t :: u :: rest) 0 = beginsAt t u := rfl
  rw [starts, starts, List.length_cons, List.length_cons, Nat.add_sub_cancel, Nat.add_sub_cancel,
    List.range_succ_eq_map, List.filter_cons, List.filter_map, hlater, hfirst]
  split <;> rfl

/-- Behind the name of a declaration no other one begins. -/
lemma starts_of_beginsAt (h : beginsAt t u) (hne : rest ≠ []) :
    starts (t :: u :: rest) = 0 :: (starts rest).map (· + 2) := by
  obtain ⟨v, vs, rfl⟩ := List.exists_cons_of_ne_nil hne
  rw [starts_cons_cons, if_pos h, starts_cons_cons, if_neg (by simp [not_beginsAt_name h]),
    List.nil_append, List.map_map]
  rfl

/-- Declarations begin one after the other, in front of the last token. -/
lemma pairwise_starts (tokens : List Token) :
    (starts tokens ++ [tokens.length - 1]).Pairwise (· < ·) := by
  have hsublist : (starts tokens ++ [tokens.length - 1]).Sublist
      (List.range (tokens.length - 1 + 1)) := by
    rw [List.range_succ]
    exact List.filter_sublist.append (List.Sublist.refl _)
  exact List.pairwise_lt_range.sublist hsublist

lemma headD_starts_le (tokens : List Token) :
    (starts tokens).headD (tokens.length - 1) ≤ tokens.length - 1 := by
  cases hstarts : starts tokens with
  | nil => exact le_rfl
  | cons i later =>
    have hi : i ∈ starts tokens := hstarts ▸ List.mem_cons_self
    exact (List.mem_range.1 (List.mem_of_mem_filter hi)).le

/-- The tokens in front of the first declaration. -/
lemma split_fst (tokens : List Token) :
    (split tokens).1 = tokens.take ((starts tokens).headD (tokens.length - 1)) := by
  fun_induction split tokens with
  | case1 => rfl
  | case2 => rfl
  | case3 t u rest h following ss hsplit ih => rw [starts_cons_cons, if_pos h]; rfl
  | case4 t u rest h front ss hsplit ih =>
    rw [hsplit] at ih
    have hfront : front = _ := ih
    rw [starts_cons_cons, if_neg h, List.nil_append, hfront]
    cases starts (u :: rest) <;> rfl

lemma extentAt?_append (vs rest : List Token) (start : Nat) (hnext : 0 < next) :
    extentAt? (vs ++ rest) (start + vs.length) (next + vs.length) = extentAt? rest start next := by
  have hget (i : Nat) : (vs ++ rest)[i + vs.length]? = rest[i]? := by
    rw [List.getElem?_append_right (Nat.le_add_left _ _), Nat.add_sub_cancel]
  have hname : start + vs.length + 1 = start + 1 + vs.length := by omega
  have hlast : next + vs.length - 1 = next - 1 + vs.length := by omega
  rw [extentAt?, extentAt?, hname, hlast, hget, hget, hget]

/-- Tokens in front only shift the places. -/
lemma extentsAt_append (hlater : (later ++ [rest.length - 1]).Pairwise (· < ·))
    (hne : rest ≠ []) :
    extentsAt (vs ++ rest) (later.map (· + vs.length)) = extentsAt rest later := by
  have hlength : (vs ++ rest).length - 1 = rest.length - 1 + vs.length := by
    have hpos := List.length_pos_iff.2 hne
    rw [List.length_append]
    omega
  induction later with
  | nil => rfl
  | cons start later ih =>
    rw [List.cons_append, List.pairwise_cons] at hlater
    obtain ⟨hstart, hlater⟩ := hlater
    -- there is something between a place and the next one
    have hnext : 0 < later.headD (rest.length - 1) := by
      refine Nat.zero_lt_of_lt (hstart _ ?_)
      cases later <;> simp
    have hhead : (later.map (· + vs.length)).headD ((vs ++ rest).length - 1) =
        later.headD (rest.length - 1) + vs.length := by
      rw [hlength]
      cases later <;> rfl
    rw [List.map_cons, extentsAt, extentsAt, hhead, extentAt?_append vs rest start hnext,
      ih hlater]

/-- The declaration at the front ends in front of the next one. -/
lemma extentAt?_zero (t u : Token) (rest : List Token) {n : Nat} (hn : n ≤ rest.length) :
    extentAt? (t :: u :: rest) 0 (n + 2) =
      some (u.value, (⟨t, u, rest.take n⟩ : Section).extent) := by
  have hlast : (t :: u :: rest)[n + 1]? = some ((rest.take n).getLast?.getD u) := by
    cases n with
    | zero => rfl
    | succ n =>
      have hget := List.getElem?_eq_getElem (Nat.lt_of_succ_le hn)
      rw [List.getLast?_take, if_neg (Nat.succ_ne_zero n), Nat.add_sub_cancel, hget]
      simp
  rw [extentAt?, show n + 2 - 1 = n + 1 from rfl, hlast]
  rfl

/-- The places where declarations begin tell where the sections are. -/
lemma extentsAt_starts (hstop : stop.kind = .endOfInput) (us : List Token) :
    extentsAt (us ++ [stop]) (starts (us ++ [stop])) =
      (sections (us ++ [stop])).map fun s => (s.name.value, s.extent) := by
  rw [sections]
  generalize htokens : us ++ [stop] = tokens
  fun_induction split tokens generalizing us with
  | case1 => simp at htokens
  | case2 t => rfl
  | case3 t u rest h following ss hsplit ih =>
    obtain ⟨us, rfl, hrest⟩ := exists_of_beginsAt (by simp [hstop]) h htokens
    have hne : rest ≠ [] := by simp [← hrest]
    have hfollowing : following = rest.take ((starts rest).headD (rest.length - 1)) := by
      rw [← split_fst, hsplit]
    have hhead : ((starts rest).map (· + 2)).headD (rest.length + 1) =
        (starts rest).headD (rest.length - 1) + 2 := by
      have hpos := List.length_pos_iff.2 hne
      cases starts rest with
      | nil => show rest.length + 1 = rest.length - 1 + 2; omega
      | cons i later => rfl
    have hle : (starts rest).headD (rest.length - 1) ≤ rest.length :=
      (headD_starts_le rest).trans (Nat.sub_le _ _)
    have hihs := ih us hrest
    rw [hsplit] at hihs
    rw [starts_of_beginsAt h hne, extentsAt]
    show (extentAt? _ 0 (((starts rest).map (· + 2)).headD (rest.length + 1))).toList ++ _ = _
    rw [hhead, extentAt?_zero t u rest hle, ← hfollowing,
      show t :: u :: rest = [t, u] ++ rest from rfl]
    rw [show (starts rest).map (· + 2) = (starts rest).map (· + [t, u].length) from rfl,
      extentsAt_append (pairwise_starts rest) hne, hihs]
    rfl
  | case4 t u rest h front ss hsplit ih =>
    obtain ⟨us, rfl, htail⟩ := exists_of_cons_cons htokens
    have hihs := ih us htail
    rw [hsplit] at hihs
    rw [starts_cons_cons, if_neg h, List.nil_append,
      show t :: u :: rest = [t] ++ (u :: rest) from rfl]
    rw [show (starts (u :: rest)).map (· + 1) = (starts (u :: rest)).map (· + [t].length) from rfl,
      extentsAt_append (pairwise_starts (u :: rest)) (List.cons_ne_nil u rest), hihs]

lemma wholes_eq (h : Ended tokens) : extents tokens =
    (firstSections tokens).map fun e => (e.1, e.2.extent) := by
  obtain ⟨us, stop, rfl, hstop⟩ := h
  rw [firstSections, ← firstOfEach_map Section.extent, List.map_map]
  exact congrArg firstOfEach (extentsAt_starts hstop us)

/-! ### Members -/

namespace Walk

/-- Members are noted one after the other. -/
def noted (w : Walk) (ps : List Span) : Walk := ps.foldl note w

/-- A section is passed. -/
def passed (w : Walk) (s : Section) : Walk := (w.opened s.name.value).noted s.members

lemma opened_eq (w : Walk) (x : Text) : w.opened x =
    if x ∈ w.members.map Prod.fst then { w with noting := .aside }
    else ⟨w.members ++ [(x, [])], .under x⟩ := by
  have hmem : w.members.any (·.1 = x) = true ↔ x ∈ w.members.map Prod.fst := by
    simp only [List.any_eq_true, decide_eq_true_eq, List.mem_map]
  exact if_congr hmem rfl rfl

/-- Where nobody looks, noting changes nothing. -/
lemma noted_of_ne (h : ∀ name, w.noting ≠ .under name) (ps : List Span) : w.noted ps = w := by
  induction ps with
  | nil => rfl
  | cons p ps ih =>
    have hnote : w.note p = w := by
      rw [note]
      split
      · rfl
      · rfl
      · next name hname => exact absurd hname (h name)
    rw [noted, List.foldl_cons, hnote]
    exact ih

/-- Members are noted under the name that was declared last. -/
lemma noted_last {es : List (Text × List Span)} (hx : x ∉ es.map Prod.fst) (ps qs : List Span) :
    noted ⟨es ++ [(x, ps)], .under x⟩ qs = ⟨es ++ [(x, ps ++ qs)], .under x⟩ := by
  have hkept (q : Span) : es.map (fun e => if e.1 = x then (e.1, e.2 ++ [q]) else e) = es := by
    refine (List.map_congr_left fun e he => if_neg ?_).trans (List.map_id es)
    rintro rfl
    exact hx (List.mem_map_of_mem he)
  induction qs generalizing ps with
  | nil => rw [List.append_nil]; rfl
  | cons q qs ih =>
    have hnote : note ⟨es ++ [(x, ps)], .under x⟩ q = ⟨es ++ [(x, ps ++ [q])], .under x⟩ := by
      simp only [note, List.map_append, hkept, List.map_singleton, if_true]
    rw [noted, List.foldl_cons, hnote]
    refine (ih (ps ++ [q])).trans ?_
    rw [List.append_assoc, List.singleton_append]

lemma members_passed (w : Walk) (s : Section) : (w.passed s).members =
    if s.name.value ∈ w.members.map Prod.fst then w.members
    else w.members ++ [(s.name.value, s.members)] := by
  rw [passed, opened_eq]
  split
  · rw [noted_of_ne (by simp)]
  · next h => rw [noted_last h, List.nil_append]

/-- Of every name, the members of its first section are kept. -/
lemma members_foldl_passed (w : Walk) (ss : List Section) : (ss.foldl passed w).members =
    w.members ++ (firstOfEach (ss.map fun s => (s.name.value, s.members))).filter
      fun e => e.1 ∉ w.members.map Prod.fst := by
  induction ss generalizing w with
  | nil => simp [firstOfEach]
  | cons s ss ih =>
    rw [List.foldl_cons, ih, members_passed, List.map_cons, firstOfEach, List.filter_cons]
    by_cases h : s.name.value ∈ w.members.map Prod.fst
    · rw [if_pos h, if_neg (by simpa using h), List.filter_filter]
      refine congrArg _ (List.filter_congr fun e _ => ?_)
      -- an entry that is new has another name than the section
      by_cases he : e.1 ∈ w.members.map Prod.fst
      · simp [he]
      · have hne : e.1 ≠ s.name.value := fun heq => he (heq ▸ h)
        simp [he, hne]
    · rw [if_neg h, if_pos (by simpa using h), List.filter_filter, List.append_assoc]
      refine congrArg _ (congrArg _ (List.filter_congr fun e _ => ?_))
      simp only [List.map_append, List.map_singleton, List.mem_append, List.mem_singleton, not_or,
        Bool.decide_and, ne_eq]

/-- A step in terms of what it passes. -/
lemma step_some (w : Walk) (b t : Token) (next? : Option Token) : w.step (some b) t next? =
    if beginsAt b t then w.opened t.value
    else w.noted (if isMember b t next? then [t.span] else []) := by
  rw [step]
  split
  · rfl
  · split
    · next hoff => exact (noted_of_ne (by simp [hoff]) _).symm
    · split <;> rfl

end Walk

/-- What stands in front of the first declaration begins with the first token, unless that is the
word `type` or the end of the input. -/
lemma head?_split (hstop : stop.kind = .endOfInput) (htokens : us ++ [stop] = u :: rest) :
    (split (u :: rest)).1.head? = some u ∨
      (split (u :: rest)).1 = [] ∧ u.kind ≠ .mark .colon := by
  cases rest with
  | nil =>
    obtain ⟨-, hlast⟩ := List.append_inj' (show us ++ [stop] = [] ++ [u] from htokens) rfl
    obtain rfl := List.singleton_inj.1 hlast
    exact .inr ⟨rfl, by simp [hstop]⟩
  | cons v rest =>
    rw [split_cons_cons]
    by_cases h : beginsAt u v
    · exact .inr ⟨by rw [if_pos h], by simp [(kind_of_beginsAt h).1]⟩
    · exact .inl (by rw [if_neg h]; rfl)

/-- A walk goes from section to section. -/
lemma along_eq (hstop : stop.kind = .endOfInput) (us : List Token) (b : Token) (w : Walk)
    (hb : ∀ t ∈ (us ++ [stop]).head?, beginsAt b t = false) :
    w.along (some b) (us ++ [stop]) = (sections (us ++ [stop])).foldl Walk.passed
      (w.noted (Section.membersAfter b (split (us ++ [stop])).1)) := by
  rw [sections]
  generalize htokens : us ++ [stop] = tokens at hb
  fun_induction split tokens generalizing us b w with
  | case1 => simp at htokens
  | case2 t =>
    obtain ⟨-, hlast⟩ := List.append_inj' (show us ++ [stop] = [] ++ [t] from htokens) rfl
    obtain rfl := List.singleton_inj.1 hlast
    have hstep : w.step (some b) stop none = w := by
      rw [Walk.step_some, if_neg (by simp [beginsAt, hstop]), if_neg (by simp [isMember, hstop])]
      rfl
    exact hstep
  | case3 t u rest h following ss hsplit ih =>
    obtain ⟨us, rfl, htail⟩ := exists_of_beginsAt (by simp [hstop]) h htokens
    have ht := (kind_of_beginsAt h).1
    have hfirst : w.step (some b) t (some u) = w := by
      rw [Walk.step_some, if_neg (by simp [hb t (by simp)]), if_neg (by simp [isMember, ht])]
      rfl
    have hsecond : w.step (some t) u rest.head? = w.opened u.value := by
      rw [Walk.step_some, if_pos h]
    have hrest := ih us u (w.opened u.value) htail fun v _ => not_beginsAt_name h v
    rw [hsplit] at hrest
    show ((w.step (some b) t (some u)).step (some t) u rest.head?).along (some u) rest = _
    rw [hfirst, hsecond, hrest]
    rfl
  | case4 t u rest h front ss hsplit ih =>
    obtain ⟨us, rfl, htail⟩ := exists_of_cons_cons htokens
    have hnext : isMember b t (some u) = isMember b t front.head? := by
      have hfront := head?_split hstop htail
      rw [hsplit] at hfront
      rcases hfront with hhead | ⟨hnil, hcolon⟩
      · rw [hhead]
      · rw [show front = [] from hnil]
        simp [isMember, hcolon]
    have hrest := ih us t (w.step (some b) t (some u)) htail (by simpa using h)
    rw [hsplit] at hrest
    show (w.step (some b) t (some u)).along (some t) (u :: rest) = _
    rw [hrest, Walk.step_some, if_neg (by simp [hb t (by simp)]), hnext]
    show ss.foldl Walk.passed _ = ss.foldl Walk.passed (w.noted (_ ++ Section.membersAfter t front))
    rw [Walk.noted, Walk.noted, Walk.noted, List.foldl_append]

lemma parts_eq (h : Ended tokens) : memberSpans tokens =
    (firstSections tokens).map fun e => (e.1, e.2.members) := by
  obtain ⟨us, stop, rfl, hstop⟩ := h
  have hbegins (t : Token) : beginsAt stop t = false := not_beginsAt_of_kind_ne (by simp [hstop])
  -- as long as no declaration has begun, the end of the input might stand in front
  have hstart : Walk.along ⟨[], .off⟩ none (us ++ [stop]) =
      Walk.along ⟨[], .off⟩ (some stop) (us ++ [stop]) := by
    obtain ⟨t, ts, hts⟩ := List.exists_cons_of_ne_nil (show us ++ [stop] ≠ [] by simp)
    have hstep : Walk.step ⟨[], .off⟩ (some stop) t ts.head? = ⟨[], .off⟩ := by
      rw [Walk.step, if_neg (by simp [hbegins]), if_pos rfl]
    rw [hts, Walk.along, Walk.along, hstep]
    rfl
  rw [memberSpans, hstart, along_eq hstop us stop _ fun t _ => hbegins t,
    Walk.members_foldl_passed, Walk.noted_of_ne (by simp)]
  rw [firstSections, ← firstOfEach_map Section.members, List.map_map]
  simp [Function.comp_def]

/-! ### Look-up -/

/-- What is looked up under a name is told by the first section of that name. -/
lemma lookup_firstSections (tokens : List Token) (x : Text) :
    (firstSections tokens).lookup x = (sections tokens).find? fun s => x == s.name.value := by
  rw [firstSections, lookup_firstOfEach, lookup_map_key]

end Outline

lemma Text.ended_tokens (s : Text) : Outline.Ended s.tokens := by
  obtain ⟨us, stop, htokens, hstop, -⟩ := s.exists_pairwise
  exact ⟨us, stop, htokens, hstop⟩

/-! ### Symbols -/

/-- The symbol of a declaration that takes its ranges from a section. -/
def Declaration.symbolIn (d : Declaration) (s : Outline.Section) : Symbol where
  name := d.name
  kind := d.body.symbolKind
  range := s.extent.range
  selection := s.name.span.range
  children := Document.memberSymbols s.name.span d.body.members s.members

/-- A declaration takes its ranges from the first section of its name. -/
lemma Document.symbol?_ofTokens {tokens : List Token} (h : Outline.Ended tokens)
    (d : Declaration) : symbol? (.ofTokens tokens) d =
      ((Outline.sections tokens).find? fun s => d.name == s.name.value).map d.symbolIn := by
  have hnames := congrArg (List.lookup d.name) (Outline.names_eq tokens)
  have hwholes := congrArg (List.lookup d.name) (Outline.wholes_eq h)
  have hparts := congrArg (List.lookup d.name) (Outline.parts_eq h)
  rw [lookup_map_snd fun s : Outline.Section => s.name.span, Outline.lookup_firstSections]
    at hnames
  rw [lookup_map_snd Outline.Section.extent, Outline.lookup_firstSections] at hwholes
  rw [lookup_map_snd Outline.Section.members, Outline.lookup_firstSections] at hparts
  rw [symbol?, Outline.ofTokens]
  simp only [hnames, hwholes, hparts]
  cases (Outline.sections tokens).find? fun s => d.name == s.name.value <;> rfl

end Idl
