/-
# Block comments when highlighting

The highlighter keeps count of open comments by its stack, and the reader of tokens by a number.
Inside a comment the highlighter passes whole runs of code points where the reader passes one or
two at a time; both agree on the place behind each mark (`Highlight.exists_inside`), so that
they agree on where a comment ends, or that it does not (`Highlight.run_blockComment`).
-/
import Idl.Proofs.Highlight.Rules
import Idl.Proofs.Highlight.Steps
import Idl.Proofs.Token.Gaps

namespace Idl

/-! ### The reader inside a comment -/

namespace Trivia

variable {c : CodePoint} {outer : Nat} {r t : Text}

lemma first_open (r : Text) : first (.scalar '/' :: .scalar '*' :: r) =
    match closeBlock 0 r with
    | some (body, rest) => .piece (.scalar '/' :: .scalar '*' :: body) rest
    | none => .unclosed := by
  have hne : ¬ CodePoint.scalar '*' = .scalar '/' := by decide
  rw [first.eq_def]
  cases hclose : closeBlock 0 r with
  | none => simp only [not_isBlank_slash, Bool.false_eq_true, if_false, if_true, hne, hclose]
  | some p => simp only [not_isBlank_slash, Bool.false_eq_true, if_false, if_true, hne, hclose]

/-- Code points that are no part of a mark are passed one by one. -/
lemma closeBlock_inner (hc : Inner c r) :
    closeBlock outer (c :: r) = (closeBlock outer r).map fun p => (c :: p.1, p.2) := by
  obtain ⟨hopen, hclose⟩ := hc
  cases r with
  | nil => cases outer <;> rfl
  | cons d r =>
    rw [List.head?_cons, Option.some.injEq] at hopen hclose
    rw [closeBlock.eq_def]
    simp only [if_neg hopen, if_neg hclose]

lemma closeBlock_open : closeBlock outer (.scalar '/' :: .scalar '*' :: r) =
    (closeBlock (outer + 1) r).map fun p => (.scalar '/' :: .scalar '*' :: p.1, p.2) := by
  rw [closeBlock.eq_def]
  simp only [and_self, if_true]

lemma closeBlock_close : closeBlock (outer + 1) (.scalar '*' :: .scalar '/' :: r) =
    (closeBlock outer r).map fun p => (.scalar '*' :: .scalar '/' :: p.1, p.2) := rfl

/-- A text that holds neither of the characters of the marks is passed as a whole. -/
lemma closeBlock_append (ht : ∀ c ∈ t, c ≠ .scalar '*' ∧ c ≠ .scalar '/') (r : Text) :
    closeBlock outer (t ++ r) = (closeBlock outer r).map fun p => (t ++ p.1, p.2) := by
  induction t with
  | nil => simp
  | cons c t ih =>
    obtain ⟨⟨hstar, hslash⟩, ht⟩ := List.forall_mem_cons.1 ht
    have hinner : Inner c (t ++ r) := ⟨fun h => hslash h.1, fun h => hstar h.1⟩
    rw [List.cons_append, closeBlock_inner hinner, ih ht, Option.map_map]
    rfl

end Trivia

/-! ### The highlighter inside a comment -/

namespace Highlight

/-- The machine gets from one place to another without being outside comments before it comes
there, and gives nothing but pieces of comments. -/
inductive Inside : Config → List Piece → Config → Prop
  /-- No step at all. -/
  | refl (k : Config) : Inside k [] k
  /-- A step in front of others. -/
  | step {k k' k'' : Config} {ps qs : List Piece} (hstack : k.stack.top = .comment)
      (h : k.step? = some (ps, k')) (hstyle : ∀ p ∈ ps, p.style = .blockComment)
      (more : Inside k' qs k'') : Inside k (ps ++ qs) k''

variable {b : Option CodePoint} {c : CodePoint} {k k' k'' : Config} {outer : Nat}
  {ps qs : List Piece} {body r rest s : Text} {S : Stack}

lemma Inside.leads (h : Inside k ps k') : Leads k ps k' := by
  induction h with
  | refl => exact .refl _
  | step _ hstep _ _ ih => exact .step hstep ih

lemma Inside.style (h : Inside k ps k') : ∀ p ∈ ps, p.style = .blockComment := by
  induction h with
  | refl => simp
  | step _ _ hstyle _ ih => exact List.forall_mem_append.2 ⟨hstyle, ih⟩

/-- Every place on the way is inside a comment. -/
lemma Inside.top_of_leads (h : Inside k ps k') (hleads : Leads k qs k'')
    (hlt : k'.rest.length < k''.rest.length) : k''.stack.top = .comment := by
  induction h generalizing qs k'' with
  | refl k =>
    have hle := congrArg List.length (text_of_leads hleads).1
    rw [List.length_append] at hle
    omega
  | step hstack hstep _ _ ih =>
    cases hleads with
    | refl => exact hstack
    | step hstep' hmore =>
      rw [hstep] at hstep'
      cases hstep'
      exact ih hmore hlt

/-- A step inside a comment that gives one piece. -/
lemma inside_step {w : Text}
    (h : Config.step? ⟨.comment :: S, b, s⟩ = some ([⟨.blockComment, w⟩], k))
    (more : Inside k ps k') : Inside ⟨.comment :: S, b, s⟩ (⟨.blockComment, w⟩ :: ps) k' :=
  .step rfl h (by simp) more

lemma exists_of_top_eq_comment (h : S.top = .comment) : ∃ st', S = .comment :: st' := by
  cases S with
  | nil => cases h
  | cons x S => exact ⟨S, by rw [show x = .comment from h]⟩

lemma step?_open : Config.step? ⟨.comment :: S, b, .scalar '/' :: .scalar '*' :: r⟩ =
    some ([⟨.blockComment, "/*"⟩], ⟨.comment :: .comment :: S, some (.scalar '*'), r⟩) := rfl

lemma step?_close : Config.step? ⟨.comment :: S, b, .scalar '*' :: .scalar '/' :: r⟩ =
    some ([⟨.blockComment, "*/"⟩], ⟨S, some (.scalar '/'), r⟩) := rfl

/-- A character of the marks that is no part of one is passed by itself. -/
lemma step?_sign (hc : c = .scalar '*' ∨ c = .scalar '/') (hinner : Trivia.Inner c r) :
    Config.step? ⟨.comment :: S, b, c :: r⟩ =
      some ([⟨.blockComment, [c]⟩], ⟨.comment :: S, some c, r⟩) := by
  have hsign : (sign .blockComment ['*', '/'] .stay).recognise b (c :: r) =
      some ([⟨.blockComment, [c]⟩], r) := recognise_sign (by rcases hc with rfl | rfl <;> rfl) r
  have hmark {w : Text} (change : Change) (d : Char) (hw : w = [c, .scalar d])
      (hd : r.head? ≠ some (.scalar d)) :
      (plain [⟨.blockComment, [.word [w]]⟩] change).recognise b (c :: r) = none := by
    refine recognise_eq_none_of_not_prefix ?_ b
    rintro ⟨t, h⟩
    rw [hw] at h
    obtain rfl := List.tail_eq_of_cons_eq h
    exact hd rfl
  have hrule : recognise commentRules b (c :: r) = some ([⟨.blockComment, [c]⟩], r, .stay) := by
    obtain ⟨hopen, hclose⟩ := hinner
    rw [recognise_filter]
    rcases hc with rfl | rfl
    · have hnone := hmark .pop '/' rfl fun h => hclose ⟨rfl, h⟩
      exact (recognise_of_none hnone).trans (recognise_of_some hsign)
    · have hnone := hmark (.push .comment) '*' rfl fun h => hopen ⟨rfl, h⟩
      exact (recognise_of_none hnone).trans (recognise_of_some hsign)
  exact step?_of_recognise (k := ⟨.comment :: S, b, c :: r⟩) hrule

/-- Everything up to the next character of a mark is passed at once. -/
lemma step?_run (hc : c ≠ .scalar '*' ∧ c ≠ .scalar '/') : ∃ w r',
    c :: r = w ++ r' ∧ w ≠ [] ∧ (∀ d ∈ w, d ≠ .scalar '*' ∧ d ≠ .scalar '/') ∧
      Config.step? ⟨.comment :: S, b, c :: r⟩ =
        some ([⟨.blockComment, w⟩], ⟨.comment :: S, w.getLast?, r'⟩) := by
  let inner := noneOf ['*', '/']
  have hinner (d : CodePoint) : inner d ↔ d ≠ .scalar '*' ∧ d ≠ .scalar '/' := by
    simp [inner, noneOf]
  have hw : ∀ d ∈ (c :: r).takeWhile inner, inner d :=
    fun d => (List.all_eq_true.1 List.all_takeWhile) d
  have hne : (c :: r).takeWhile inner ≠ [] := by
    simp [(hinner c).2 hc]
  have hsplit : c :: r = (c :: r).takeWhile inner ++ (c :: r).dropWhile inner :=
    List.takeWhile_append_dropWhile.symm
  refine ⟨_, _, hsplit, hne, fun d hd => (hinner d).1 (hw d hd), ?_⟩
  have hrule := recognise_run (b := b) .blockComment .stay hw hne
    (stopsAt_dropWhile inner (c :: r))
  rw [← hsplit] at hrule
  have hfirst : recognise commentRules b (c :: r) =
      some ([⟨.blockComment, (c :: r).takeWhile inner⟩], (c :: r).dropWhile inner, .stay) :=
    recognise_of_some hrule
  have hstep := step?_of_recognise (k := ⟨.comment :: S, b, c :: r⟩) hfirst
  rwa [textOf_singleton] at hstep

/-! ### Both together -/

/-- Where the machine is when the reader has found the end of a comment, or none. -/
def ComesOut : Option (Text × Text) → Config → Prop
  | some (_, rest), k => k.stack = [] ∧ k.rest = rest
  | none, k => k.stack.top = .comment ∧ k.rest = []

lemma comesOut_map_iff {o : Option (Text × Text)} (f : Text → Text) :
    ComesOut (o.map fun p => (f p.1, p.2)) k ↔ ComesOut o k := by
  cases o <;> rfl

/-- The machine inside as many comments as the reader counts comes out where the reader does. -/
lemma exists_inside (outer : Nat) (b : Option CodePoint) (s : Text) : ∃ ps k,
    Inside ⟨.replicate (outer + 1) .comment, b, s⟩ ps k ∧
      ComesOut (Trivia.closeBlock outer s) k := by
  cases s with
  | nil => exact ⟨[], _, .refl _, rfl, rfl⟩
  | cons c r =>
    by_cases hplain : c ≠ .scalar '*' ∧ c ≠ .scalar '/'
    · obtain ⟨w, r', hsplit, hne, hw, hstep⟩ :=
        step?_run (b := b) (r := r) (S := .replicate outer .comment) hplain
      have hlt : r'.length < (c :: r).length := by
        have hpos := List.length_pos_iff.2 hne
        rw [hsplit, List.length_append]
        omega
      obtain ⟨ps, k, hinside, hout⟩ := exists_inside outer w.getLast? r'
      refine ⟨_, k, inside_step hstep hinside, ?_⟩
      rw [hsplit, Trivia.closeBlock_append hw, comesOut_map_iff (w ++ ·)]
      exact hout
    have hmark : c = .scalar '*' ∨ c = .scalar '/' := by
      by_contra h
      exact hplain (not_or.1 h)
    by_cases hinner : Trivia.Inner c r
    · obtain ⟨ps, k, hinside, hout⟩ := exists_inside outer (some c) r
      refine ⟨_, k, inside_step (step?_sign hmark hinner) hinside, ?_⟩
      rw [Trivia.closeBlock_inner hinner, comesOut_map_iff (c :: ·)]
      exact hout
    · -- only a mark is left, and the rest of it is the head of the rest
      rw [Trivia.Inner, not_and_or, not_not, not_not] at hinner
      rcases hinner with ⟨rfl, hr⟩ | ⟨rfl, hr⟩
      · obtain ⟨r, rfl⟩ := List.head?_eq_some_iff.1 hr
        obtain ⟨ps, k, hinside, hout⟩ := exists_inside (outer + 1) (some (.scalar '*')) r
        refine ⟨_, k, inside_step step?_open hinside, ?_⟩
        rw [Trivia.closeBlock_open, comesOut_map_iff (_ :: _ :: ·)]
        exact hout
      · obtain ⟨r, rfl⟩ := List.head?_eq_some_iff.1 hr
        cases outer with
        | zero => exact ⟨_, _, inside_step step?_close (.refl _), rfl, rfl⟩
        | succ outer =>
          obtain ⟨ps, k, hinside, hout⟩ := exists_inside outer (some (.scalar '/')) r
          refine ⟨_, k, inside_step step?_close hinside, ?_⟩
          rw [Trivia.closeBlock_close, comesOut_map_iff (_ :: _ :: ·)]
          exact hout
termination_by s.length
decreasing_by
  · exact hlt
  · simp
  · subst_vars
    simp only [List.length_cons]
    omega
  · subst_vars
    simp only [List.length_cons]
    omega

/-- A block comment is highlighted as far as the reader of tokens takes it to reach, and from no
place inside it the machine is back in its first state; where the reader finds no end, the machine
finds none either. -/
theorem run_blockComment (r : Text) :
    let s : Text := .scalar '/' :: .scalar '*' :: r
    (∀ w rest, Trivia.first s = .piece w rest →
      s = w ++ rest ∧ (∃ ps b, Leads (.start s) ps ⟨[], b, rest⟩ ∧ textOf ps = w ∧
        ∀ p ∈ ps, p.style = .blockComment) ∧
      ∀ qs k, Leads (.start s) qs k → rest.length < k.rest.length → k.rest.length < s.length →
        k.stack ≠ []) ∧
    (Trivia.first s = .unclosed →
      (∀ p ∈ (Config.start s).run, p.style = .blockComment) ∧
        ∃ S b, Leads (.start s) (Config.start s).run ⟨.comment :: S, b, []⟩) ∧
    Trivia.first s ≠ .none := by
  intro s
  have hopen : Config.step? (.start s) =
      some ([⟨.blockComment, "/*"⟩], ⟨[.comment], some (.scalar '*'), r⟩) := rfl
  obtain ⟨ps, k, hinside, hout⟩ := exists_inside 0 (some (.scalar '*')) r
  have hleads : Leads (.start s) (⟨.blockComment, "/*"⟩ :: ps) k := .step hopen hinside.leads
  have hstyle : ∀ p ∈ (⟨.blockComment, "/*"⟩ :: ps : List Piece), p.style = .blockComment :=
    List.forall_mem_cons.2 ⟨rfl, hinside.style⟩
  have hfirst := Trivia.first_open r
  rcases hclose : Trivia.closeBlock 0 r with _ | ⟨body, rest⟩ <;> rw [hclose] at hfirst hout
  · obtain ⟨htop, hrest⟩ := hout
    have hrun : (Config.start s).run = ⟨.blockComment, "/*"⟩ :: ps := by
      rw [run_eq_of_leads hleads, run_nil hrest, List.append_nil]
    obtain ⟨stack, b, rest⟩ := k
    obtain rfl : rest = [] := hrest
    obtain ⟨S, rfl⟩ : ∃ S, stack = .comment :: S := exists_of_top_eq_comment htop
    refine ⟨fun w rest h => ?_, fun _ => ?_, ?_⟩
    · rw [hfirst] at h
      cases h
    · rw [hrun]
      exact ⟨hstyle, S, b, hleads⟩
    · rw [hfirst]
      exact fun h => nomatch h
  · obtain ⟨stack, b, rest'⟩ := k
    obtain ⟨rfl, rfl⟩ : stack = [] ∧ rest' = rest := hout
    refine ⟨fun w rest h => ?_, fun h => ?_, ?_⟩
    · rw [hfirst] at h
      cases h
      obtain ⟨hsplit, -⟩ := Trivia.first_eq_piece hfirst
      have htext := (text_of_leads hleads).1
      refine ⟨hsplit, ⟨_, b, hleads, ?_, hstyle⟩, fun qs k hqs hlt hgt hk => ?_⟩
      · exact List.append_cancel_right (htext.symm.trans hsplit)
      · cases hqs with
        | refl => exact absurd hgt (Nat.lt_irrefl _)
        | step hstep hmore =>
          rw [hopen] at hstep
          cases hstep
          have htop := hinside.top_of_leads hmore hlt
          rw [hk] at htop
          cases htop
    · rw [hfirst] at h
      cases h
    · rw [hfirst]
      exact fun h => nomatch h

end Highlight

end Idl
