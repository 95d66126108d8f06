/-
# Where paths lead

A path that was read from a text has no names that say nothing.  The text of such a path is cut into
its names again, so the path leads where its names lead one after the other
(`Disk.locate_eq_walk`).  Without double dots this is the place that the names tell, below a path it
is below the place of that path (`Disk.locate_below`), and it never is another place than the path
tells as it is written (`Disk.resolve_of_locate`).
-/
import Idl.Proofs.Files.Tree
import Idl.Proofs.Text.Names
import Mathlib.Data.List.TakeWhile

namespace Idl

/-! ### Sizes of texts -/

namespace Text

variable {s t : Text} {ss ts : List Text}

lemma utf8Size_cons (c : CodePoint) (t : Text) :
    utf8Size (c :: t) = c.utf8Size + t.utf8Size := by
  have hfrom (n : Nat) (t : Text) : t.foldl (fun n c => n + c.utf8Size) n = n + t.utf8Size := by
    induction t generalizing n with
    | nil => rfl
    | cons d t ih =>
      rw [utf8Size, List.foldl_cons, List.foldl_cons, ih, ih (0 + d.utf8Size)]
      omega
  rw [utf8Size, List.foldl_cons, hfrom, Nat.zero_add]

lemma utf8Size_append (s t : Text) : (s ++ t).utf8Size = s.utf8Size + t.utf8Size := by
  induction s with
  | nil => exact (Nat.zero_add _).symm
  | cons c s ih =>
    rw [List.cons_append, utf8Size_cons, utf8Size_cons, ih]
    omega

lemma utf8Size_pos (h : t ≠ []) : 0 < t.utf8Size := by
  obtain ⟨c, r, rfl⟩ := List.exists_cons_of_ne_nil h
  have hc : 0 < c.utf8Size := by
    unfold CodePoint.utf8Size
    split_ifs <;> omega
  rw [utf8Size_cons]
  omega

lemma utf8Size_slashes (n : Nat) : utf8Size (List.replicate n (.scalar '/')) = n := by
  induction n with
  | zero => rfl
  | succ n ih =>
    rw [List.replicate_succ', utf8Size_append, ih]
    rfl

/-- Leaving out parts makes no text longer. -/
lemma utf8Size_join_le (sep : Text) (h : ts.Sublist ss) :
    (join sep ts).utf8Size ≤ (join sep ss).utf8Size := by
  have hcons (s : Text) (ss : List Text) : utf8Size ((s :: ss).flatMap (sep ++ ·)) =
      sep.utf8Size + s.utf8Size + utf8Size (ss.flatMap (sep ++ ·)) := by
    rw [List.flatMap_cons, utf8Size_append, utf8Size_append]
  have hjoin (s : Text) (ss : List Text) : (join sep (s :: ss)).utf8Size =
      s.utf8Size + utf8Size (ss.flatMap (sep ++ ·)) := by rw [join_cons, utf8Size_append]
  have hrest {ts ss : List Text} (h : ts.Sublist ss) :
      utf8Size (ts.flatMap (sep ++ ·)) ≤ utf8Size (ss.flatMap (sep ++ ·)) := by
    induction h with
    | slnil => exact le_rfl
    | cons s _ ih =>
      rw [hcons]
      omega
    | cons_cons s _ ih =>
      rw [hcons, hcons]
      omega
  induction h with
  | slnil => exact le_rfl
  | @cons ts ss s h ih =>
    cases ss with
    | nil =>
      rw [List.sublist_nil.1 h]
      exact Nat.zero_le _
    | cons u us =>
      rw [hjoin, hcons]
      rw [hjoin] at ih
      omega
  | cons_cons s h _ =>
    have hle := hrest h
    rw [hjoin, hjoin]
    omega

lemma mem_join_of_mem {sep s : Text} {c : CodePoint} (hs : s ∈ ss) (hc : c ∈ s) :
    c ∈ join sep ss := by
  cases ss with
  | nil => cases hs
  | cons u us =>
    rw [join_cons, List.mem_append, List.mem_flatMap]
    rcases List.mem_cons.1 hs with rfl | hs
    · exact .inl hc
    · exact .inr ⟨s, hs, List.mem_append_right sep hc⟩

end Text

/-! ### Paths and their texts -/

/-- A name that says nothing. -/
def Text.IsSilent (name : Text) : Prop := name = [] ∨ name = Text.ofString "."

lemma Text.isSilent_iff {name : Text} : name.IsSilent ↔ name = [] ∨ name = Text.ofString "." :=
  Iff.rfl

namespace FilePath

/-- All names of a path say something, and none has a slash in it. -/
def IsPlain (p : FilePath) : Prop := ∀ name ∈ p.names, ¬ name.IsSilent ∧ .scalar '/' ∉ name

/-- The place that a path starts from. -/
def origin (here : Location) (p : FilePath) : Location := if p.anchor = .none then here else []

variable {p q : FilePath} {t : Text} {way : List Text}

lemma isPlain_ofText (t : Text) : (ofText t).IsPlain := by
  intro name hname
  obtain ⟨hpiece, hspeaks⟩ := List.mem_filter.1 hname
  refine ⟨fun h => ?_, fun h => (Text.mem_of_mem_pieces hpiece h).2 rfl⟩
  simp only [ne_eq, decide_not, Bool.and_eq_true, Bool.not_eq_true', decide_eq_false_iff_not]
    at hspeaks
  exact h.elim hspeaks.1 hspeaks.2

lemma IsPlain.join (hp : p.IsPlain) (hq : q.IsPlain) : (p.join q).IsPlain := by
  unfold FilePath.join
  split
  · exact List.forall_mem_append.2 ⟨hp, hq⟩
  · exact hq

lemma IsPlain.below (hp : p.IsPlain) (hway : ∀ name ∈ way, name.IsProperName) :
    (p.below way).IsPlain := by
  refine List.forall_mem_append.2 ⟨hp, fun name hname => ?_⟩
  have hproper := hway name hname
  exact ⟨fun h => h.elim hproper.ne_nil hproper.ne_dot, hproper.slash⟩

lemma zero_mem_text :
    CodePoint.scalar '\x00' ∈ p.text ↔ ∃ name ∈ p.names, CodePoint.scalar '\x00' ∈ name := by
  have hanchor : CodePoint.scalar '\x00' ∉ p.anchor.text := by cases p.anchor <;> decide
  have hjoin : CodePoint.scalar '\x00' ∈ Text.join "/" p.names ↔
      ∃ name ∈ p.names, CodePoint.scalar '\x00' ∈ name := by
    constructor
    · intro h
      exact (Text.mem_of_mem_join h).resolve_left (by decide)
    · rintro ⟨name, hname, h⟩
      exact Text.mem_join_of_mem hname h
  rw [text, ← hjoin]
  split
  · next hempty =>
    rw [(List.append_eq_nil_iff.1 hempty).2]
    decide
  · rw [List.mem_append, or_iff_right hanchor]

lemma text_ne_nil (p : FilePath) : p.text ≠ [] := by
  rw [text]
  split
  · decide
  · next h => exact h

/-- The text of a path is cut into its names, behind names that say nothing. -/
lemma IsPlain.exists_pieces_text (hp : p.IsPlain) : ∃ silent : List Text,
    (∀ name ∈ silent, name.IsSilent) ∧ Text.pieces '/' p.text = silent ++ p.names := by
  obtain ⟨anchor, names⟩ := p
  have hempty : Text.IsSilent [] := .inl rfl
  have hcut (hne : names ≠ []) : Text.pieces '/' (Text.join "/" names) = names :=
    Text.pieces_join hne fun name hname => (hp name hname).2
  by_cases hne : names = []
  · subst hne
    refine ⟨Text.pieces '/' (text ⟨anchor, []⟩), ?_, (List.append_nil _).symm⟩
    cases anchor <;> simp [text, Anchor.text, Text.join, Text.pieces, Text.ofString, Text.IsSilent]
  · have hsome : Text.join "/" names ≠ [] := by
      obtain ⟨name, names, rfl⟩ := List.exists_cons_of_ne_nil hne
      exact Text.join_cons_ne_nil (fun h => (hp name (by simp)).1 (.inl h)) _ _
    have htext : text ⟨anchor, names⟩ = anchor.text ++ Text.join "/" names :=
      if_neg fun h => hsome (List.append_eq_nil_iff.1 h).2
    cases anchor with
    | none => exact ⟨[], by simp, htext ▸ hcut hne⟩
    | root =>
      refine ⟨[[]], by simp [hempty], ?_⟩
      rw [htext]
      show Text.pieces '/' (.scalar '/' :: Text.join "/" names) = _
      rw [Text.pieces_cons_sep, hcut hne]
      rfl
    | doubleRoot =>
      refine ⟨[[], []], by simp [hempty], ?_⟩
      rw [htext]
      show Text.pieces '/' (.scalar '/' :: .scalar '/' :: Text.join "/" names) = _
      rw [Text.pieces_cons_sep, Text.pieces_cons_sep, hcut hne]
      rfl

lemma IsPlain.anchorOf_text (hp : p.IsPlain) : anchorOf p.text = p.anchor := by
  obtain ⟨anchor, names⟩ := p
  have hstart : ∀ c ∈ (Text.join "/" names).head?, ¬ c = CodePoint.scalar '/' := by
    intro c hc hslash
    cases names with
    | nil => cases hc
    | cons name names =>
      obtain ⟨hspeaks, hclear⟩ := hp name List.mem_cons_self
      obtain ⟨d, r, rfl⟩ := List.exists_cons_of_ne_nil fun h => hspeaks (.inl h)
      rw [Text.join_cons, List.cons_append, List.head?_cons] at hc
      rw [Option.some.inj hc, hslash] at hclear
      exact hclear List.mem_cons_self
  have hnone : (Text.join "/" names).takeWhile (fun c : CodePoint => c = '/') = [] := by
    rcases hrest : Text.join "/" names with _ | ⟨c, r⟩
    · rfl
    · rw [hrest] at hstart
      rw [List.takeWhile_cons_of_neg (by simpa using hstart c rfl)]
  have hslashes : ∀ c ∈ anchor.text, decide (c = CodePoint.scalar '/') = true := by
    cases anchor <;> decide
  rw [text]
  split
  · next h =>
    obtain ⟨hanchor, -⟩ := List.append_eq_nil_iff.1 h
    cases anchor
    · rfl
    · cases hanchor
    · cases hanchor
  · unfold anchorOf
    rw [List.takeWhile_append_of_pos hslashes, hnone, List.append_nil]
    cases anchor <;> rfl

/-- Slashes in front only give names that say nothing. -/
lemma names_ofText_slashes (n : Nat) (r : Text) :
    (ofText (List.replicate n (.scalar '/') ++ r)).names = (ofText r).names := by
  induction n with
  | zero => rfl
  | succ n ih =>
    rw [← ih, List.replicate_succ, List.cons_append]
    simp only [ofText, Text.pieces_cons_sep]
    rfl

/-- The names of a path take no more room than the text that they were read from. -/
lemma utf8Size_names_ofText_le (t : Text) :
    (Text.join "/" (ofText t).names).utf8Size ≤ t.utf8Size :=
  (Text.utf8Size_join_le "/" List.filter_sublist).trans_eq
    (congrArg Text.utf8Size (Text.join_pieces (.scalar '/') t))

/-- The text of a path is no longer than the text that it was read from. -/
lemma utf8Size_text_ofText_le (h : t ≠ []) : (ofText t).text.utf8Size ≤ t.utf8Size := by
  set n := (t.takeWhile fun c : CodePoint => c = '/').length with hn
  set r : Text := t.dropWhile fun c : CodePoint => c = '/' with hr
  have hslashes : (t.takeWhile fun c : CodePoint => c = '/') = List.replicate n (.scalar '/') :=
    List.eq_replicate_of_mem fun c hc => by simpa using List.mem_takeWhile_imp hc
  have hsplit : t = List.replicate n (.scalar '/') ++ r := by
    rw [← hslashes]
    exact List.takeWhile_append_dropWhile.symm
  have hsize : t.utf8Size = n + r.utf8Size := by
    rw [← Text.utf8Size_slashes n, ← Text.utf8Size_append, ← hsplit]
  have hnames : (Text.join "/" (ofText t).names).utf8Size ≤ r.utf8Size := by
    rw [hsplit, names_ofText_slashes]
    exact utf8Size_names_ofText_le r
  have hanchor : (ofText t).anchor.text.utf8Size ≤ n := by
    show (anchorOf t).text.utf8Size ≤ n
    rw [anchorOf, ← hn]
    rcases n with _ | _ | _ | n
    · decide
    · decide
    · decide
    · show 1 ≤ n + 3
      omega
  have hpos := Text.utf8Size_pos h
  rw [text]
  split
  · exact hpos
  · rw [Text.utf8Size_append]
    omega

end FilePath

/-! ### Following names -/

namespace Disk

variable {d : Disk} {k l : Location} {name : Text} {ms ns way : List Text} {p : FilePath} {t : Text}

lemma walk_cons (h : d.walk l (name :: ns) = .ok k) : d.isFolder l ∧ name.utf8Size ≤ nameLimit ∧
    d.walk (if name = [] ∨ name = Text.ofString "." then l else l.step name) ns = .ok k := by
  rw [walk] at h
  split_ifs at h with hfolder hlong hsilent hfile
  · exact ⟨hfolder, by omega, by rwa [if_pos hsilent]⟩
  · exact ⟨hfolder, by omega, by rwa [if_neg hsilent]⟩

/-- Behind some names a walk goes on from where they lead. -/
lemma walk_append (h : d.walk l ns = .ok k) (ms : List Text) :
    d.walk l (ns ++ ms) = d.walk k ms := by
  induction ns generalizing l with
  | nil =>
    rw [walk] at h
    split at h
    · rw [← Except.ok.inj h]
      rfl
    · cases h
  | cons name ns ih =>
    obtain ⟨hfolder, hshort, hrest⟩ := walk_cons h
    rw [List.cons_append, walk, if_pos hfolder, if_neg (by omega), ih hrest]

/-- Names that say nothing lead nowhere else. -/
lemma walk_silent (hms : ∀ name ∈ ms, name.IsSilent) (hl : d.isFolder l) (ns : List Text) :
    d.walk l (ms ++ ns) = d.walk l ns := by
  induction ms with
  | nil => rfl
  | cons name ms ih =>
    obtain ⟨hname, hrest⟩ := List.forall_mem_cons.1 hms
    have hshort : ¬ nameLimit < name.utf8Size := by
      rcases hname with rfl | rfl <;> decide
    rw [List.cons_append, walk, if_pos hl, if_neg hshort,
      if_pos (Text.isSilent_iff.1 hname), ih hrest]

lemma walk_filter (h : d.walk l ns = .ok k) :
    d.walk l (ns.filter fun n => n ≠ [] && n ≠ Text.ofString ".") = .ok k := by
  induction ns generalizing l with
  | nil => exact h
  | cons name ns ih =>
    obtain ⟨hfolder, hshort, hrest⟩ := walk_cons h
    by_cases hsilent : name = [] ∨ name = Text.ofString "."
    · rw [if_pos hsilent] at hrest
      rw [List.filter_cons_of_neg (by simpa [or_iff_not_imp_left] using hsilent), ih hrest]
    · rw [if_neg hsilent] at hrest
      have hspeaks : name ≠ [] ∧ name ≠ Text.ofString "." := not_or.1 hsilent
      rw [List.filter_cons_of_pos (by simpa using hspeaks), walk, if_pos hfolder,
        if_neg (by omega), if_neg hsilent, ih hrest]

/-- A walk ends where the names tell as they are written. -/
lemma eq_foldl_of_walk (hns : ∀ name ∈ ns, ¬ name.IsSilent) (h : d.walk l ns = .ok k) :
    k = ns.foldl Location.step l := by
  induction ns generalizing l with
  | nil =>
    rw [walk] at h
    split at h
    · exact (Except.ok.inj h).symm
    · cases h
  | cons name ns ih =>
    obtain ⟨hname, hrest⟩ := List.forall_mem_cons.1 hns
    obtain ⟨-, -, hwalk⟩ := walk_cons h
    rw [if_neg (mt Text.isSilent_iff.2 hname)] at hwalk
    exact ih hrest hwalk

/-- What exists is found by its names. -/
lemma walk_proper (hexists : d.exists? (l ++ way)) (hway : ∀ name ∈ way, name.IsProperName) :
    d.walk l way = .ok (l ++ way) := by
  induction way generalizing l with
  | nil =>
    rw [List.append_nil] at hexists ⊢
    rw [walk, if_pos hexists]
  | cons name way ih =>
    obtain ⟨hname, hrest⟩ := List.forall_mem_cons.1 hway
    have hfolder : d.isFolder l := isFolder_of_exists?_append hexists (List.cons_ne_nil name way)
    have hstep : l.step name = l ++ [name] := if_neg hname.ne_dots
    have hshort := hname.short
    rw [List.append_cons] at hexists
    rw [walk, if_pos hfolder, if_neg (by omega),
      if_neg (not_or.2 ⟨hname.ne_nil, hname.ne_dot⟩), hstep, ih hexists hrest, ← List.append_cons]

/-! ### Following paths -/

lemma find_eq_ok (h : d.find t = .ok k) : t ≠ [] ∧ CodePoint.scalar '\x00' ∉ t ∧
    t.utf8Size ≤ pathLimit ∧
    d.walk (if FilePath.anchorOf t = .none then d.here else []) (Text.pieces '/' t) = .ok k := by
  rw [find] at h
  split_ifs at h with hempty hzero hlong hanchor
  · exact ⟨hempty, hzero, by omega, by rwa [if_pos hanchor]⟩
  · exact ⟨hempty, hzero, by omega, by rwa [if_neg hanchor]⟩

lemma isFolder_origin (d : Disk) (p : FilePath) : d.isFolder (p.origin d.here) := by
  unfold FilePath.origin
  split
  · exact d.isFolder_here
  · exact d.isFolder_root

/-- A path leads where its names lead. -/
lemma locate_eq_walk (hp : p.IsPlain) (hzero : CodePoint.scalar '\x00' ∉ p.text)
    (hshort : p.text.utf8Size ≤ pathLimit) :
    d.locate p = d.walk (p.origin d.here) p.names := by
  obtain ⟨silent, hsilent, hpieces⟩ := hp.exists_pieces_text
  rw [locate, find, if_neg p.text_ne_nil, if_neg hzero, if_neg (by omega), hp.anchorOf_text,
    hpieces]
  exact walk_silent hsilent (isFolder_origin d p) p.names

lemma walk_of_locate (hp : p.IsPlain) (h : d.locate p = .ok k) :
    d.walk (p.origin d.here) p.names = .ok k := by
  obtain ⟨-, hzero, hshort, -⟩ := find_eq_ok h
  rw [← locate_eq_walk hp hzero hshort, h]

/-- The path that a text says leads where the text leads. -/
lemma locate_ofText (h : d.find t = .ok k) : d.locate (FilePath.ofText t) = .ok k := by
  obtain ⟨hne, hzero, hshort, hwalk⟩ := find_eq_ok h
  have hclear : CodePoint.scalar '\x00' ∉ (FilePath.ofText t).text := by
    rw [FilePath.zero_mem_text]
    rintro ⟨name, hname, hmem⟩
    exact hzero (Text.mem_of_mem_pieces (List.mem_filter.1 hname).1 hmem).1
  rw [locate_eq_walk (FilePath.isPlain_ofText t) hclear
    ((FilePath.utf8Size_text_ofText_le hne).trans hshort)]
  exact walk_filter hwalk

/-- A path leads to the place that it tells as it is written. -/
lemma resolve_of_locate (hp : p.IsPlain) (h : d.locate p = .ok k) : p.resolve d.here = k :=
  (eq_foldl_of_walk (fun name hname => (hp name hname).1) (walk_of_locate hp h)).symm

/-- Below the place of a path its paths lead to what the way tells. -/
lemma locate_below (htree : d.IsTree) (hp : p.IsPlain) (h : d.locate p = .ok k)
    (hexists : d.exists? (k ++ way)) (hshort : (p.below way).text.utf8Size ≤ pathLimit) :
    d.locate (p.below way) = .ok (k ++ way) := by
  have hway := htree.isProperName hexists
  have hzero : CodePoint.scalar '\x00' ∉ (p.below way).text := by
    obtain ⟨-, hclear, -, -⟩ := find_eq_ok h
    rw [FilePath.zero_mem_text] at hclear ⊢
    rintro ⟨name, hname, hmem⟩
    rcases List.mem_append.1 hname with hname | hname
    · exact hclear ⟨name, hname, hmem⟩
    · exact (hway name hname).zero hmem
  rw [locate_eq_walk (hp.below hway) hzero hshort]
  exact (walk_append (walk_of_locate hp h) way).trans (walk_proper hexists hway)

end Disk

end Idl
