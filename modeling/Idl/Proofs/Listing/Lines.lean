/-
# The lines of listings

The lines of a node tell its parts and where they end (`Listing.Tells`): a part has its name in
front, and a sequence goes on as long as a line has the label of its members.  The margins are not
needed for that, so the depth may be any integer, also one so far below zero that there are none.
Texts are quoted, so that nothing in a line would break it or be taken for an escape sequence
(`Listing.Shown`).
-/
import Idl.Module.Listing
import Idl.Proofs.Text.Quoted
import Mathlib.Data.List.Basic

namespace Idl

namespace Listing

variable {α β γ δ : Type} {a b : α} {depth : Int} {name w : Text} {ends ends' : List Text}
variable {f : α → List Text} {g : α → List Text} {u : α → β} {v : α → γ} {r s : List Text}

/-! ### Labels -/

/-- A word that can be a label: it begins with no blank and holds no colon. -/
def IsLabel (w : Text) : Prop := (∀ c ∈ w.head?, c ≠ ' ') ∧ w ≠ [] ∧ CodePoint.scalar ':' ∉ w

instance : DecidablePred IsLabel := fun w =>
  inferInstanceAs (Decidable ((∀ c ∈ w.head?, c ≠ ' ') ∧ w ≠ [] ∧ CodePoint.scalar ':' ∉ w))

/-- The label of a line: what stands behind the margin, up to a colon. -/
def label (line : Text) : Text :=
  (line.dropWhile fun c : CodePoint => c = ' ').takeWhile fun c : CodePoint => c ≠ ':'

lemma label_spaces_append (n : Int) (t : Text) : label (Text.spaces n ++ t) = label t := by
  have hspaces : ∀ c ∈ Text.spaces n, decide (c = .scalar ' ') = true := by
    intro c hc
    exact decide_eq_true (List.eq_of_mem_replicate hc)
  rw [label, List.dropWhile_append_of_pos hspaces, label]

lemma label_append (hw : IsLabel w) (hr : ∀ c ∈ List.head? t, c = CodePoint.scalar ':') :
    label (w ++ t) = w := by
  obtain ⟨hhead, hne, hcolon⟩ := hw
  obtain ⟨c, w, rfl⟩ := List.exists_cons_of_ne_nil hne
  have hpoints : ∀ d ∈ c :: w, decide (d ≠ .scalar ':') = true := by
    intro d hd
    exact decide_eq_true fun h => hcolon (h ▸ hd)
  have hstop : t.takeWhile (fun c : CodePoint => c ≠ ':') = [] := by
    cases t with
    | nil => rfl
    | cons d t => simp [hr d rfl]
  rw [label, List.cons_append, List.dropWhile_cons_of_neg (by simpa using hhead c rfl),
    ← List.cons_append, List.takeWhile_append_of_pos hpoints, hstop, List.append_nil]

lemma label_node (hw : IsLabel w) (depth : Int) : label (node depth w) = w := by
  rw [node, margin, label_spaces_append]
  simpa using label_append (t := []) hw (by simp)

lemma label_plain (hw : IsLabel w) (depth : Int) (value : Text) :
    label (plain depth w value) = w := by
  have hline : plain depth w value = Text.spaces (2 * depth) ++ (Text.spaces 2 ++
      (w ++ (":" ++ (" " ++ value) : Text))) := by
    simp only [plain, heading, margin, List.append_assoc]
    rfl
  rw [hline, label_spaces_append, label_spaces_append]
  exact label_append hw (by simp [Text.ofString])

lemma label_heading (hw : IsLabel w) (depth : Int) : label (heading depth w) = w := by
  have hline : heading depth w =
      Text.spaces (2 * depth) ++ (Text.spaces 2 ++ (w ++ (":" : Text))) := by
    simp only [heading, margin, List.append_assoc]
    rfl
  rw [hline, label_spaces_append, label_spaces_append]
  exact label_append hw (by simp [Text.ofString])

/-! ### What lines tell -/

/-- The lines do not begin with one of some labels. -/
def Off (ends : List Text) (lines : List Text) : Prop := ∀ line ∈ lines.head?, label line ∉ ends

/-- Lines tell what they were made of and where they end, whatever stands behind them that does not
begin with one of some labels. -/
def Tells (ends : List Text) (f : α → List Text) (u : α → β) : Prop :=
  ∀ a b r s, Off ends r → Off ends s → f a ++ r = f b ++ s → u a = u b ∧ r = s

lemma off_nil (ends : List Text) : Off ends [] := by simp [Off]

lemma off_cons {line : Text} (h : label line ∉ ends) (r : List Text) : Off ends (line :: r) := by
  simpa [Off] using h

lemma Off.mono (h : Off ends' r) (hsub : ends ⊆ ends') : Off ends r :=
  fun line hline hmem => h line hline (hsub hmem)

lemma Tells.mono (h : Tells ends f u) (hsub : ends ⊆ ends') : Tells ends' f u :=
  fun a b r s hr hs => h a b r s (hr.mono hsub) (hs.mono hsub)

lemma Tells.imp (h : Tells ends f u) (himp : ∀ a b, u a = u b → v a = v b) : Tells ends f v := by
  intro a b r s hr hs heq
  obtain ⟨hu, hrest⟩ := h a b r s hr hs heq
  exact ⟨himp a b hu, hrest⟩

lemma Tells.comp (h : Tells ends f u) (p : δ → α) :
    Tells ends (fun d => f (p d)) fun d => u (p d) :=
  fun a b => h (p a) (p b)

/-- A line in front that is always the same. -/
lemma Tells.under (h : Tells ends f u) (line : Text) : Tells ends (fun a => line :: f a) u :=
  fun a b r s hr hs heq => h a b r s hr hs (List.cons.inj heq).2

/-- Lines behind lines, if they do not begin like those that the first ones would go on with. -/
lemma Tells.append (hf : Tells ends f u) (hg : Tells ends' g v)
    (hoff : ∀ a r, Off ends' r → Off ends (g a ++ r)) :
    Tells ends' (fun a => f a ++ g a) fun a => (u a, v a) := by
  intro a b r s hr hs heq
  rw [List.append_assoc, List.append_assoc] at heq
  obtain ⟨hu, hmore⟩ := hf a b _ _ (hoff a r hr) (hoff b s hs) heq
  obtain ⟨hv, hrest⟩ := hg a b r s hr hs hmore
  exact ⟨Prod.ext hu hv, hrest⟩

/-! ### Parts -/

lemma node_ne {w' : Text} (h : w ≠ w') (depth : Int) : node depth w ≠ node depth w' :=
  fun heq => h (List.append_cancel_left heq)

lemma plain_inj {value value' : Text} (h : plain depth name value = plain depth name value') :
    value = value' :=
  List.append_cancel_left h

lemma quotedPart_inj {value value' : Text}
    (h : quotedPart depth name value = quotedPart depth name value') : value = value' :=
  Text.quoted_injective (plain_inj h)

lemma member_inj {value value' : Text} (h : member depth value = member depth value') :
    value = value' := by
  rw [member, member, List.singleton_inj] at h
  exact Text.quoted_injective (List.append_cancel_left h)

lemma label_member (depth : Int) (value : Text) : ∀ line ∈ member depth value,
    label line = Text.ofString "str" := by
  intro line hline
  rw [member, List.mem_singleton] at hline
  rw [hline, margin, List.append_assoc, label_spaces_append,
    show ("str: " : Text) = ("str" : Text) ++ (": " : Text) from rfl, List.append_assoc]
  exact label_append (by decide) (by simp [Text.ofString])

/-- A text in front. -/
lemma Tells.named (h : Tells ends f u) (depth : Int) (name : Text) (p : α → Text) :
    Tells ends (fun a => quotedPart depth name (p a) :: f a) fun a => (p a, u a) := by
  intro a b r s hr hs heq
  obtain ⟨hline, hmore⟩ := List.cons.inj heq
  obtain ⟨hu, hrest⟩ := h a b r s hr hs hmore
  exact ⟨Prod.ext (quotedPart_inj hline) hu, hrest⟩

lemma tells_quotedPart (depth : Int) (name : Text) :
    Tells [] (fun value => [quotedPart depth name value]) fun value => value := by
  intro a b r s _ _ heq
  obtain ⟨hline, hrest⟩ := List.cons.inj heq
  exact ⟨quotedPart_inj hline, hrest⟩

lemma tells_optionalPart (hname : IsLabel name) (depth : Int) :
    Tells [name] (optionalPart depth name) fun value => value := by
  have hlabel (value : Text) : label (quotedPart depth name value) ∈ [name] := by
    rw [quotedPart, label_plain hname]
    exact List.mem_singleton_self name
  intro a b r s hr hs heq
  cases a with
  | none =>
    cases b with
    | none => exact ⟨rfl, heq⟩
    | some v =>
      obtain rfl : r = quotedPart depth name v :: s := heq
      exact absurd (hlabel v) (hr _ rfl)
  | some v =>
    cases b with
    | none =>
      obtain rfl : quotedPart depth name v :: r = s := heq
      exact absurd (hlabel v) (hs _ rfl)
    | some v' =>
      obtain ⟨hline, hrest⟩ := List.cons.inj heq
      exact ⟨congrArg some (quotedPart_inj hline), hrest⟩

lemma tells_child (h : Tells ends f u) (depth : Int) (name : Text) :
    Tells ends (fun a => child depth name (f a)) u :=
  h.under (heading depth name)

/-- Members are told one by one, as long as lines begin like a member. -/
lemma Tells.flatten (h : Tells ends f u) (hw : w ∉ ends)
    (hhead : ∀ a, ∃ line lines, f a = line :: lines ∧ label line = w) :
    Tells (w :: ends) (fun as : List α => (as.map f).flatten) fun as => as.map u := by
  have hoff (as : List α) (r : List Text) (hr : Off (w :: ends) r) :
      Off ends ((as.map f).flatten ++ r) := by
    cases as with
    | nil => exact hr.mono (List.subset_cons_self w ends)
    | cons a as =>
      obtain ⟨line, lines, hf, hlabel⟩ := hhead a
      rw [List.map_cons, List.flatten_cons, hf]
      exact off_cons (by rwa [hlabel]) _
  have hnone (a : α) (as : List α) (r s : List Text) (hr : Off (w :: ends) r) :
      r ≠ ((a :: as).map f).flatten ++ s := by
    rintro rfl
    obtain ⟨line, lines, hf, hlabel⟩ := hhead a
    refine hr line ?_ (hlabel ▸ List.mem_cons_self)
    rw [List.map_cons, List.flatten_cons, hf]
    rfl
  intro as
  induction as with
  | nil =>
    rintro (_ | ⟨b, bs⟩) r s hr hs heq
    · exact ⟨rfl, heq⟩
    · exact absurd heq (hnone b bs r s hr)
  | cons a as ih =>
    rintro (_ | ⟨b, bs⟩) r s hr hs heq
    · exact absurd heq.symm (hnone a as s r hs)
    · simp only [List.map_cons, List.flatten_cons, List.append_assoc] at heq
      obtain ⟨hu, hmore⟩ := h a b _ _ (hoff as r hr) (hoff bs s hs) heq
      obtain ⟨hus, hrest⟩ := ih bs r s hr hs hmore
      exact ⟨congrArg₂ List.cons hu hus, hrest⟩

/-- A sequence is told by its members, and one without any by its line. -/
lemma tells_children (h : Tells ends f u) (hw : w ∉ ends)
    (hhead : ∀ a, ∃ line lines, f a = line :: lines ∧ label line = w) (depth : Int)
    (name : Text) :
    Tells (w :: ends) (fun as : List α => children depth name (as.map f)) fun as => as.map u := by
  have hheading : ∀ value : Text, heading depth name ≠ plain depth name value := by
    intro value heq
    have hlength := congrArg List.length heq
    rw [plain, List.length_append, List.length_append] at hlength
    have hblank : 0 < List.length (" " : Text) := by decide
    omega
  rintro (_ | ⟨a, as⟩) (_ | ⟨b, bs⟩) r s hr hs heq
  · exact ⟨rfl, (List.cons.inj heq).2⟩
  · exact absurd (List.cons.inj heq).1.symm (hheading _)
  · exact absurd (List.cons.inj heq).1 (hheading _)
  · exact h.flatten hw hhead (a :: as) (b :: bs) r s hr hs (List.cons.inj heq).2

/-- The line of a sequence has its name for a label. -/
lemma off_children (hname : IsLabel name) (h : name ∉ ends) (depth : Int)
    (members : List (List Text)) (r : List Text) :
    Off ends (children depth name members ++ r) := by
  cases members with
  | nil =>
    refine off_cons ?_ r
    rwa [label_plain hname]
  | cons =>
    refine off_cons ?_ _
    rwa [label_heading hname]

lemma tells_members (depth : Int) (name : Text) : Tells ["str"]
    (fun vs : List Text => children depth name (vs.map (member (depth + 2)))) id := by
  have hmember : Tells [] (member (depth + 2)) id := by
    intro a b r s _ _ heq
    obtain ⟨hline, hrest⟩ := List.append_inj heq rfl
    exact ⟨member_inj hline, hrest⟩
  refine (tells_children hmember (by decide) (fun v => ⟨_, _, rfl, ?_⟩) depth name).imp ?_
  · exact label_member (depth + 2) v _ List.mem_cons_self
  · intro vs vs' h
    rwa [List.map_id, List.map_id] at h

/-! ### What stands in lines -/

/-- All that stands in the lines can be shown. -/
def Shown (lines : List Text) : Prop := ∀ line ∈ lines, ∀ c ∈ line, c.isPrintable

variable {value : Text} {lines lines' : List Text}

lemma shown_nil : Shown [] := by simp [Shown]

lemma Shown.append (h : Shown lines) (h' : Shown lines') : Shown (lines ++ lines') :=
  List.forall_mem_append.2 ⟨h, h'⟩

lemma Shown.cons {line : Text} (hline : ∀ c ∈ line, c.isPrintable) (h : Shown lines) :
    Shown (line :: lines) :=
  List.forall_mem_cons.2 ⟨hline, h⟩

lemma isPrintable_margin (depth : Int) : ∀ c ∈ margin depth, c.isPrintable := by
  intro c hc
  rw [List.eq_of_mem_replicate hc]
  decide

lemma isPrintable_heading (h : ∀ c ∈ name, c.isPrintable) :
    ∀ c ∈ heading depth name, c.isPrintable := by
  simp only [heading, List.forall_mem_append]
  exact ⟨⟨⟨isPrintable_margin depth, by decide⟩, h⟩, by decide⟩

lemma isPrintable_plain (h : ∀ c ∈ name, c.isPrintable) (hvalue : ∀ c ∈ value, c.isPrintable) :
    ∀ c ∈ plain depth name value, c.isPrintable := by
  simp only [plain, List.forall_mem_append]
  exact ⟨⟨isPrintable_heading h, by decide⟩, hvalue⟩

lemma Shown.node (h : Shown lines) (hw : ∀ c ∈ w, c.isPrintable) :
    Shown (node depth w :: lines) :=
  h.cons (List.forall_mem_append.2 ⟨isPrintable_margin depth, hw⟩)

lemma Shown.quotedPart (h : Shown lines) (hname : ∀ c ∈ name, c.isPrintable) (value : Text) :
    Shown (quotedPart depth name value :: lines) :=
  h.cons (isPrintable_plain hname fun _ => Text.isPrintable_of_mem_quoted)

lemma Shown.child (h : Shown lines) (hname : ∀ c ∈ name, c.isPrintable) :
    Shown (child depth name lines) :=
  h.cons (isPrintable_heading hname)

lemma shown_optionalPart (h : ∀ c ∈ name, c.isPrintable) (value : Option Text) :
    Shown (optionalPart depth name value) := by
  cases value with
  | none => exact shown_nil
  | some v => exact shown_nil.quotedPart h v

lemma shown_children {members : List (List Text)} (h : ∀ c ∈ name, c.isPrintable)
    (hmembers : ∀ lines ∈ members, Shown lines) : Shown (children depth name members) := by
  cases members with
  | nil => exact shown_nil.cons (isPrintable_plain h (by decide))
  | cons ls lss =>
    refine Shown.cons (isPrintable_heading h) fun line hline => ?_
    obtain ⟨lines, hlines, hmem⟩ := List.mem_flatten.1 hline
    exact hmembers lines hlines line hmem

lemma shown_members (h : ∀ c ∈ name, c.isPrintable) (values : List Text) :
    Shown (children depth name (values.map (member (depth + 2)))) := by
  refine shown_children h fun lines hlines => ?_
  obtain ⟨v, -, rfl⟩ := List.mem_map.1 hlines
  refine shown_nil.cons ?_
  simp only [List.forall_mem_append]
  exact ⟨⟨isPrintable_margin _, by decide⟩, fun _ => Text.isPrintable_of_mem_quoted⟩

lemma shown_nodes {α : Type} {f : α → List Text} (h : ∀ c ∈ name, c.isPrintable)
    (hf : ∀ a, Shown (f a)) (as : List α) : Shown (children depth name (as.map f)) := by
  refine shown_children h fun lines hlines => ?_
  obtain ⟨a, -, rfl⟩ := List.mem_map.1 hlines
  exact hf a

end Listing

end Idl
