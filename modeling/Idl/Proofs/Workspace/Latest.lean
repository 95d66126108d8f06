/-
# Only the latest text counts

What a workspace knows of a document is settled by the last request that opened, changed or closed
it (`Workspace.find?_handleAll`).  So it answers about a document as if the document had just been
opened with its latest text, or had never been open, whatever came before and whatever happens to
other documents; and a document never keeps anything of an earlier text
(`Workspace.handleAll_latest`).
-/
import Idl.Proofs.Grammar.FirstFailure
import Idl.Proofs.Text.Entries
import Idl.Workspace

namespace Idl

variable {_ : Machine}

/-- The range does not end in front of its beginning. -/
def Range.Ordered (r : Range) : Prop :=
  r.first.line < r.stop.line ∨ r.first.line = r.stop.line ∧ r.first.offset ≤ r.stop.offset

/-- What is known of a document is what its text gives: its tokens, and either a module and no
problem, or no module and the one problem for which the text holds none. -/
structure Document.Sound [Machine] (d : Document) : Prop where
  /-- The tokens are those of the text. -/
  tokens : d.tokens = d.source.tokens
  /-- The module or the problem is that of the text. -/
  result : (∃ m, Module.parse d.source = .ok m ∧ d.module? = some m ∧ d.problems = []) ∨
    ∃ e, Module.parse d.source = .error e ∧ d.module? = none ∧ d.problems = [e] ∧
      e.span.range.Ordered

/-- The request asks about the document. -/
def Request.AsksAbout (uri : Text) : Request → Prop
  | .hover u _ _ | .symbols u | .formatting u _ => u = uri
  | _ => False

/-- What the request leaves of the document, if it opens, changes or closes it: the text that the
document has from then on, or nothing. -/
def Request.leaves? (uri : Text) : Request → Option (Option Text)
  | .opened u text => if u = uri then some (some text) else none
  | .changed u texts => if u = uri then some (some (texts.getLast?.getD [])) else none
  | .closed u => if u = uri then some none else none
  | _ => none

/-- What the last of the requests that open, change or close the document leaves of it. -/
def Request.latest (uri : Text) (rs : List Request) : Option Text :=
  (rs.filterMap (leaves? uri)).getLast?.join

variable {e : SyntaxError} {p q : Position} {r : Request} {rs : List Request} {s text uri : Text}
  {t : Token} {w : Workspace}

/-! ### The range of a problem -/

lemma Span.ordered_upTo (h : p = q ∨ p.Before q) : (upTo p q).range.Ordered := by
  unfold Position.Before at h
  unfold Range.Ordered range upTo
  simp only
  split <;> rcases h with rfl | h <;> omega

lemma ordered_tokensAfter {e : Ending} {ls : List Lexeme} (ht : t ∈ e.tokensAfter p ls) :
    t.span.range.Ordered := by
  induction ls generalizing p with
  | nil =>
    cases e with
    | clean gap =>
      obtain rfl := List.mem_singleton.1 ht
      exact Span.ordered_upTo (.inl rfl)
    | fault f before read rest =>
      rcases List.mem_pair.1 ht with rfl | rfl
      · exact .inr ⟨rfl, by simp only [Span.range, Span.point]; omega⟩
      · exact Span.ordered_upTo (.inl rfl)
  | cons l ls ih =>
    rcases List.mem_cons.1 ht with rfl | ht
    · exact Span.ordered_upTo (Position.eq_or_before_after _ _)
    · exact ih ht

lemma Module.ordered_of_parse (h : parse s = .error e) : e.span.range.Ordered := by
  obtain ⟨us, t, vs, htokens, hspan, -⟩ := exists_settled_of_parse h
  have ht : t ∈ s.tokens := by simp [htokens]
  rw [hspan]
  exact ordered_tokensAfter ht

lemma Document.sound_ofText (text : Text) : (ofText text).Sound := by
  refine ⟨rfl, ?_⟩
  have hresult : (ofText text).result = Module.parse text := rfl
  rcases h : Module.parse text with e | m
  · exact .inr ⟨e, h, by rw [module?, hresult, h]; rfl, by rw [problems, hresult, h],
      Module.ordered_of_parse h⟩
  · exact .inl ⟨m, h, by rw [module?, hresult, h]; rfl, by rw [problems, hresult, h]⟩

namespace Workspace

/-! ### Look-up -/

lemma find?_remove (w : Workspace) (u uri : Text) :
    (w.remove u).find? uri = if u = uri then none else w.find? uri :=
  lookup_filter_ne w.documents u uri

lemma find?_put (w : Workspace) (u text uri : Text) :
    (w.put u text).find? uri = if u = uri then some (.ofText text) else w.find? uri := by
  show List.lookup uri ((u, Document.ofText text) :: (w.remove u).documents) = _
  by_cases hu : u = uri
  · rw [if_pos hu, hu, List.lookup_cons_self]
  · rw [lookup_cons_of_ne (Ne.symm hu), if_neg hu]
    exact (w.find?_remove u uri).trans (if_neg hu)

lemma mem_uris_iff : uri ∈ w.uris ↔ w.find? uri ≠ none := by
  rw [uris, List.mem_mergeSort, List.mem_map, find?, ne_eq, List.lookup_eq_none_iff]
  push Not
  simp only [bne_iff_ne, ne_eq, Decidable.not_not]
  exact exists_congr fun p => and_congr_right fun _ => eq_comm

/-! ### One request -/

/-- What a request leaves of the document is all that is known of it then. -/
lemma find?_handle (w : Workspace) (r : Request) (uri : Text) : (w.handle r).2.find? uri =
    ((r.leaves? uri).map (·.map .ofText)).getD (w.find? uri) := by
  cases r with
  | opened u text =>
    show (w.put u text).find? uri = _
    rw [find?_put, Request.leaves?]
    split <;> rfl
  | changed u texts =>
    show (w.put u (texts.getLast?.getD [])).find? uri = _
    rw [find?_put, Request.leaves?]
    split <;> rfl
  | closed u =>
    show (w.remove u).find? uri = _
    rw [find?_remove, Request.leaves?]
    split <;> rfl
  | _ => rfl

/-- A document that is opened or changed has its problems told at once, as in any workspace. -/
lemma reply_of_leaves? (w w' : Workspace) (h : r.leaves? uri = some (some text)) :
    (w.handle r).1 = (w'.handle (.opened uri text)).1 := by
  cases r <;> simp only [Request.leaves?, reduceCtorEq, Option.ite_none_right_eq_some,
    Option.some.injEq, and_false] at h
  · obtain ⟨rfl, rfl⟩ := h
    rfl
  · obtain ⟨rfl, rfl⟩ := h
    rfl

/-- Answers about a document depend on what is known of it only. -/
lemma reply_of_asksAbout {w' : Workspace} (hr : r.AsksAbout uri)
    (h : w.find? uri = w'.find? uri) : (w.handle r).1 = (w'.handle r).1 := by
  cases r <;> cases hr <;> simp only [handle, h]

/-! ### Runs -/

lemma handleAll_cons (w : Workspace) (r : Request) (rs : List Request) : w.handleAll (r :: rs) =
    ((w.handle r).1 :: ((w.handle r).2.handleAll rs).1, ((w.handle r).2.handleAll rs).2) := rfl

lemma handleAll_append (w : Workspace) (rs rs' : List Request) : w.handleAll (rs ++ rs') =
    ((w.handleAll rs).1 ++ ((w.handleAll rs).2.handleAll rs').1,
      ((w.handleAll rs).2.handleAll rs').2) := by
  induction rs generalizing w with
  | nil => rfl
  | cons r rs ih => simp only [List.cons_append, handleAll_cons, ih]

lemma length_replies (w : Workspace) (rs : List Request) :
    (w.handleAll rs).1.length = rs.length := by
  induction rs generalizing w with
  | nil => rfl
  | cons r rs ih => simp only [handleAll_cons, List.length_cons, ih]

/-- What the last of the requests that open, change or close the document leaves of it is all that
is known of it in the end. -/
lemma find?_handleAll (w : Workspace) (rs : List Request) (uri : Text) :
    (w.handleAll rs).2.find? uri =
      (((rs.filterMap (Request.leaves? uri)).getLast?).map (·.map .ofText)).getD (w.find? uri) := by
  induction rs generalizing w with
  | nil => rfl
  | cons r rs ih =>
    rw [handleAll_cons, ih, find?_handle, List.filterMap_cons]
    cases r.leaves? uri with
    | none => rfl
    | some left =>
      rw [List.getLast?_cons]
      cases (rs.filterMap (Request.leaves? uri)).getLast? <;> rfl

/-- From no open documents on, all that is known of a document is its latest text. -/
lemma find?_latest (rs : List Request) (uri : Text) :
    (empty.handleAll rs).2.find? uri = (Request.latest uri rs).map Document.ofText := by
  rw [find?_handleAll, Request.latest]
  cases (rs.filterMap (Request.leaves? uri)).getLast? <;> rfl

/-- Every document in a workspace that is reached is the document of some text. -/
lemma exists_ofText_handleAll (rs : List Request)
    (hw : ∀ p ∈ w.documents, ∃ text, p.2 = Document.ofText text) :
    ∀ p ∈ (w.handleAll rs).2.documents, ∃ text, p.2 = Document.ofText text := by
  induction rs generalizing w with
  | nil => exact hw
  | cons r rs ih =>
    refine ih (w := (w.handle r).2) ?_
    have hremove (u : Text) : ∀ p ∈ (w.remove u).documents, ∃ text, p.2 = Document.ofText text :=
      fun p hp => hw p (List.mem_of_mem_filter hp)
    have hput (u text : Text) :
        ∀ p ∈ (w.put u text).documents, ∃ text, p.2 = Document.ofText text :=
      List.forall_mem_cons.2 ⟨⟨text, rfl⟩, hremove u⟩
    cases r with
    | opened u text => exact hput u text
    | changed u texts => exact hput u _
    | closed u => exact hremove u
    | _ => exact hw

end Workspace

/-- A workspace answers about a document as if it had just been opened with its latest text, or
had never been open, if it is closed; each opening and change has been answered like that, too; and
all documents are what their texts give. -/
theorem Workspace.handleAll_latest (rs : List Request) :
    let w := (empty.handleAll rs).2
    (∀ uri, Request.latest uri rs = none → uri ∉ w.uris ∧
      (∀ line offset, (w.handle (.hover uri line offset)).1 = .hover none) ∧
      (w.handle (.symbols uri)).1 = .symbols [] ∧
      ∀ indent, (w.handle (.formatting uri indent)).1 = .formatting (.ok none)) ∧
    (∀ uri text, Request.latest uri rs = some text → uri ∈ w.uris ∧
      ∀ r : Request, r.AsksAbout uri →
        (w.handle r).1 = ((empty.handle (.opened uri text)).2.handle r).1) ∧
    (∀ uri text before r after, rs = before ++ r :: after → r.leaves? uri = some (some text) →
      (empty.handleAll rs).1[before.length]? = some (empty.handle (.opened uri text)).1) ∧
    ∀ uri d, (uri, d) ∈ w.documents → d.Sound := by
  intro w
  have hfind (uri : Text) : w.find? uri = (Request.latest uri rs).map Document.ofText :=
    find?_latest rs uri
  refine ⟨fun uri h => ?_, fun uri text h => ?_, ?_, fun uri d hd => ?_⟩
  · have hnone : w.find? uri = none := by rw [hfind, h]; rfl
    refine ⟨fun hmem => mem_uris_iff.1 hmem hnone, ?_⟩
    simp only [handle, hnone]
    exact ⟨fun _ _ => rfl, rfl, fun _ => rfl⟩
  · have hsome : w.find? uri = some (.ofText text) := by rw [hfind, h]; rfl
    have hfresh : (empty.handle (.opened uri text)).2.find? uri = some (.ofText text) := by
      rw [find?_handle, Request.leaves?, if_pos rfl]
      rfl
    exact ⟨mem_uris_iff.2 (by simp [hsome]),
      fun r hr => reply_of_asksAbout hr (hsome.trans hfresh.symm)⟩
  · rintro uri text before r after rfl hr
    rw [handleAll_append, handleAll_cons, List.getElem?_append_right (length_replies _ _).le,
      length_replies, Nat.sub_self]
    exact congrArg some (reply_of_leaves? _ _ hr)
  · obtain ⟨text, rfl⟩ := exists_ofText_handleAll rs (w := empty) (by simp [empty]) _ hd
    exact Document.sound_ofText text

/-- A document that is changed to nothing, and another one that is closed. -/
theorem Workspace.handleAll_latest_two_documents :
    let _ : Machine := .usual
    let rs : List Request := [.opened "a" "scala", .opened "b" "", .changed "a" ["purs", ""],
      .hover "b" 0 0, .closed "b"]
    let w := (empty.handleAll rs).2
    (Request.latest "a" rs = some [] ∧ Request.latest "b" rs = none) ∧
      ("a" : Text) ∈ w.uris ∧ ("b" : Text) ∉ w.uris ∧ (w.handle (.symbols "b")).1 = .symbols [] ∧
      (w.handle (.formatting "a" 2)).1 =
        ((empty.handle (.opened "a" "")).2.handle (.formatting "a" 2)).1 ∧
      (empty.handleAll rs).1[2]? = some (empty.handle (.opened "a" "")).1 ∧
      ∀ uri d, (uri, d) ∈ w.documents → d.Sound := by
  intro _ rs w
  obtain ⟨hclosed, hopen, hpublished, hsound⟩ := handleAll_latest rs
  obtain ⟨hb, -, hsymbols, -⟩ := hclosed "b" (by decide)
  obtain ⟨ha, hanswer⟩ := hopen "a" [] (by decide)
  exact ⟨by decide, ha, hb, hsymbols, hanswer (.formatting "a" 2) rfl,
    hpublished "a" [] (rs.take 2) (.changed "a" ["purs", ""]) (rs.drop 3) rfl (by decide), hsound⟩

end Idl
