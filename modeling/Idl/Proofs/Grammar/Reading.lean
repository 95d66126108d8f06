/-
# Readers and phrases

What it means that a reader reads a phrase: whenever it returns a value, it has passed tokens
that spell this value, and these tokens together with the next one leave no other value; and
whenever it gives up at a token, the tokens before it begin the phrase, and with that token
they do not.  For the kinds that may stand behind the phrase the two parts together are the
viable prefix property.

The statement is kept by sequencing, by looking at the current token, and by repetition, so
that a production is treated by following its text.  The rule for sequencing is
`Grammar.Reads.bind`; it asks that what comes second cannot begin with a token that would
still continue what comes first.
-/
import Idl.Module.OfTokens
import Idl.Proofs.Grammar.Derivation
import Mathlib.Tactic.Common

namespace Idl

/-- Whether a token of a kind stops every reader. -/
def TokenKind.isEnd : TokenKind → Bool
  | .fault | .endOfInput => true
  | _ => false

namespace TokenStream

/-- The stream holds a token that stops every reader, so that none runs past the last token. -/
def Closed (s : TokenStream) : Prop := ∃ t ∈ s.toList, t.kind.isEnd

variable {s s' : TokenStream}

lemma toList_eq_cons (s : TokenStream) : s.toList = s.current :: s.ahead := rfl

lemma eq_of_toList_eq (h : s.toList = s'.toList) : s = s' := by
  obtain ⟨hcurrent, hahead⟩ := List.cons.inj h
  exact congrArg₂ TokenStream.mk hcurrent hahead

/-- Behind a token that is no end, a closed stream goes on. -/
lemma Closed.toList_next (h : s.Closed) (hk : s.current.kind.isEnd = false) :
    s.toList = s.current :: s.next.toList := by
  obtain ⟨t, ht, hend⟩ := h
  rcases hs : s.ahead with _ | ⟨u, us⟩
  · have : t = s.current := by simpa [toList, hs] using ht
    rw [this, hk] at hend
    exact absurd hend (by simp)
  · simp [toList, next, hs]

/-- Passing tokens that are no ends keeps a stream closed. -/
lemma Closed.of_append {w : List Token} (h : s.Closed) (hw : ∀ t ∈ w, t.kind.isEnd = false)
    (hs : s.toList = w ++ s'.toList) : s'.Closed := by
  obtain ⟨t, ht, hend⟩ := h
  rw [hs, List.mem_append] at ht
  rcases ht with ht | ht
  · exact absurd hend (by simp [hw t ht])
  · exact ⟨t, ht, hend⟩

/-- A nonempty front part of the tokens begins with the current one. -/
lemma current_prefix {w rest : List Token} {t : Token} (h : s.toList = w ++ t :: rest) :
    [s.current] <+: w ++ [t] := by
  cases w with
  | nil =>
    simp only [toList, List.nil_append, List.cons.injEq] at h
    simp [h.1]
  | cons u us =>
    simp only [toList, List.cons_append, List.cons.injEq] at h
    simp [h.1]

end TokenStream

/-! ### What tokens say about a phrase -/

/-- The list begins with a token of one of some kinds. -/
def Follows (F : TokenKind → Prop) (v : List Token) : Prop := ∃ t us, v = t :: us ∧ F t.kind

lemma Follows.mono {F F' : TokenKind → Prop} {v : List Token} (h : Follows F v)
    (hF : ∀ k, F k → F' k) : Follows F' v := by
  obtain ⟨t, us, rfl, ht⟩ := h
  exact ⟨t, us, rfl, hF _ ht⟩

lemma Follows.append {F : TokenKind → Prop} {z : List Token} (h : Follows F z) (v : List Token) :
    Follows F (z ++ v) := by
  obtain ⟨t, us, rfl, ht⟩ := h
  exact ⟨t, us ++ v, rfl, ht⟩

lemma Follows.any {F : TokenKind → Prop} {v : List Token} (h : Follows F v) (z : List Token) :
    Follows (fun _ => True) (z ++ v) := by
  obtain ⟨t, us, rfl, -⟩ := h
  cases z with
  | nil => exact ⟨t, us, rfl, trivial⟩
  | cons u us' => exact ⟨u, _, rfl, trivial⟩

namespace Phrase

variable {α β : Type}

/-- The tokens can be continued to the phrase. -/
def Begins (G : Phrase α) (w : List Token) : Prop := ∃ a z, G a z ∧ w <+: z

/-- If the phrase and what may follow it begin with these tokens and the next one, the phrase is
made up by these tokens and has this value. -/
def Fixes (G : Phrase α) (F : TokenKind → Prop) (w : List Token) (t : Token) (a : α) : Prop :=
  ∀ b z v, G b z → Follows F v → w ++ [t] <+: z ++ v → b = a ∧ z = w

/-- The phrase with what may follow it does not begin with these tokens and the next one, as far
as values of a kind go. -/
def Excludes (G : Phrase α) (F : TokenKind → Prop) (S : α → Prop) (w : List Token) (t : Token) :
    Prop :=
  ∀ b z v, G b z → Follows F v → w ++ [t] <+: z ++ v → ¬ S b

/-- A phrase, and behind it one that may depend on the value of the first. -/
def andThen (G : Phrase α) (H : α → Phrase β) : Phrase β :=
  fun b ts => ∃ a us vs, G a us ∧ H a b vs ∧ ts = us ++ vs

/-- A token of a kind, and behind it a phrase that may depend on the token. -/
def after (k : TokenKind) (H : Token → Phrase α) : Phrase α :=
  fun a ts => ∃ t us, ts = t :: us ∧ t.kind = k ∧ H t a us

/-- No tokens at all, with a given value. -/
def nothing (a : α) : Phrase α := fun b ts => b = a ∧ ts = []

/-- One of two phrases. -/
def either (G H : Phrase α) : Phrase α := fun a ts => G a ts ∨ H a ts

variable {G : Phrase α} {F : TokenKind → Prop} {S : α → Prop} {t : Token}

/-! ### Phrases that are possible -/

/-- Some tokens spell the phrase. -/
def Possible (G : Phrase α) : Prop := ∃ a z, G a z

lemma possible_nothing (a : α) : (nothing a).Possible := ⟨a, [], rfl, rfl⟩

lemma possible_many (G : Phrase α) : (Many G).Possible := ⟨[], [], .nil⟩

lemma possible_after {k : TokenKind} {H : Token → Phrase α} (h : ∀ t, (H t).Possible) :
    (after k H).Possible := by
  obtain ⟨a, z, haz⟩ := h ⟨k, [], default⟩
  exact ⟨a, _, _, z, rfl, rfl, haz⟩

lemma possible_andThen {H : α → Phrase β} (hG : G.Possible) (hH : ∀ a, (H a).Possible) :
    (G.andThen H).Possible := by
  obtain ⟨a, us, ha⟩ := hG
  obtain ⟨b, vs, hb⟩ := hH a
  exact ⟨b, _, a, us, vs, ha, hb, rfl⟩

lemma Possible.either_right {H : Phrase α} (h : H.Possible) : (G.either H).Possible := by
  obtain ⟨a, z, haz⟩ := h
  exact ⟨a, z, .inr haz⟩

/-! ### What stands at the beginning of a phrase -/

/-- The phrase is never empty and begins with a token of one of some kinds. -/
def StartsWith (G : Phrase α) (K : TokenKind → Prop) : Prop := ∀ a ts, G a ts → Follows K ts

lemma startsWith_after {k : TokenKind} {H : Token → Phrase α} : (after k H).StartsWith (· = k) := by
  rintro a _ ⟨t, us, rfl, hk, -⟩
  exact ⟨t, us, rfl, hk⟩

lemma StartsWith.andThen {K : TokenKind → Prop} {H : α → Phrase β} (h : G.StartsWith K) :
    (G.andThen H).StartsWith K := by
  rintro b _ ⟨a, us, vs, ha, -, rfl⟩
  exact (h a us ha).append vs

/-- A token of another kind cannot stand at the beginning. -/
lemma StartsWith.excludes {K : TokenKind → Prop} (h : G.StartsWith K) (hk : ¬ K t.kind) :
    G.Excludes F S [] t := by
  rintro a z v ha - hz
  obtain ⟨u, us, rfl, hu⟩ := h a z ha
  obtain ⟨rfl, -⟩ := List.cons_prefix_cons.1 hz
  exact absurd hu hk

lemma excludes_nothing {a : α} (hF : ¬ F t.kind) : (nothing a).Excludes F S [] t := by
  rintro _ _ v ⟨-, rfl⟩ ⟨u, us, rfl, hu⟩ hz
  obtain ⟨rfl, -⟩ := List.cons_prefix_cons.1 hz
  exact absurd hu hF

lemma excludes_either {G H : Phrase α} {w : List Token} (hG : G.Excludes F S w t)
    (hH : H.Excludes F S w t) : (G.either H).Excludes F S w t := by
  rintro b z v (h | h)
  · exact hG b z v h
  · exact hH b z v h

lemma follows_nothing {a b : α} {z v : List Token} (h : nothing a b z) (hv : Follows F v) :
    Follows F (z ++ v) := by
  obtain ⟨-, rfl⟩ := h
  exact hv

/-- The phrases in a repetition can be taken off one by one. -/
lemma many_iff {as : List α} {ts : List Token} :
    Many G as ts ↔ (as = [] ∧ ts = []) ∨
      G.andThen (fun a => (Many G).andThen fun bs => nothing (a :: bs)) as ts := by
  constructor
  · rintro (_ | ⟨h, hs⟩)
    · exact .inl ⟨rfl, rfl⟩
    · exact .inr ⟨_, _, _, h, ⟨_, _, [], hs, ⟨rfl, rfl⟩, (List.append_nil _).symm⟩, rfl⟩
  · rintro (⟨rfl, rfl⟩ | ⟨a, us, _, h, ⟨bs, vs, _, hs, ⟨rfl, rfl⟩, rfl⟩, rfl⟩)
    · exact .nil
    · rw [List.append_nil]
      exact .cons h hs

/-- Where a repetition and what follows it begin, stands the kind with which each part begins,
or what follows. -/
lemma follows_many {k : TokenKind} {as : List α} {z v : List Token} (hstart : G.StartsWith (· = k))
    (h : Many G as z) (hv : Follows F v) : Follows (fun x => x = k ∨ F x) (z ++ v) := by
  rcases h with _ | ⟨hb, -⟩
  · exact hv.mono fun _ => .inr
  · exact (((hstart _ _ hb).mono fun _ => .inl).append _).append v

/-- Where a repetition begins, a token of another kind that may not follow cannot stand. -/
lemma excludes_many {k : TokenKind} {T : List α → Prop} (hstart : G.StartsWith (· = k))
    (hk : t.kind ≠ k) (hF : ¬ F t.kind) : (Many G).Excludes F T [] t := by
  rintro as z v h hv hz
  obtain ⟨u, us, heq, hu⟩ := follows_many hstart h hv
  rw [heq] at hz
  obtain ⟨rfl, -⟩ := List.cons_prefix_cons.1 hz
  rcases hu with hu | hu
  · exact absurd hu hk
  · exact absurd hu hF

end Phrase

/-! ### Reading -/

namespace Grammar

open Phrase

variable {α β : Type}

/-- How a reader fares at a stream with a phrase, the kinds that may follow the phrase, and the
values that are not nested too deep. -/
def Reads (P : Grammar α) (G : Phrase α) (F : TokenKind → Prop) (S : α → Prop)
    (s : TokenStream) : Prop :=
  match P s with
  | .ok (a, s') =>
    ∃ w, s.toList = w ++ s'.toList ∧ (∀ t ∈ w, t.kind.isEnd = false) ∧ G a w ∧ S a ∧
      G.Fixes F w s'.current a
  | .error e =>
    ∃ w t rest, s.toList = w ++ t :: rest ∧ (∀ u ∈ w, u.kind.isEnd = false) ∧ e.span = t.span ∧
      (e.problem = .tooDeep ∧ G.Excludes F S w t ∨
        e.problem ≠ .tooDeep ∧ G.Begins w ∧ G.Excludes F (fun _ => True) w t)

variable {P : Grammar α} {Q : α → Grammar β} {G G' : Phrase α} {F : TokenKind → Prop}
  {S : α → Prop} {s : TokenStream}

/-- Reading depends on the reader at the stream only. -/
lemma Reads.of_eq {P' : Grammar α} (h : Reads P' G F S s) (he : P s = P' s) :
    Reads P G F S s := by
  rw [Reads, he]
  exact h

/-- A reader that gives up at the current token. -/
lemma reads_of_error {e : SyntaxError} (h : P s = .error e) (he : e.problem ≠ .tooDeep)
    (hspan : e.span = s.current.span) (hG : G.Possible)
    (hex : G.Excludes F (fun _ => True) [] s.current) : Reads P G F S s := by
  obtain ⟨a, z, haz⟩ := hG
  rw [Reads, h]
  exact ⟨[], s.current, s.ahead, rfl, by simp, hspan,
    .inr ⟨he, ⟨a, z, haz, List.nil_prefix⟩, hex⟩⟩

/-- The phrase may be exchanged for one that has the same continuations of the current token. -/
lemma Reads.congr (h : Reads P G F S s) (hto : ∀ a ts, G a ts → G' a ts)
    (hfrom : ∀ a ts v, G' a ts → Follows F v → [s.current] <+: ts ++ v → G a ts) :
    Reads P G' F S s := by
  unfold Reads at h ⊢
  split at h
  · next a s' _ =>
    obtain ⟨w, hs, hw, hG, hS, hfix⟩ := h
    refine ⟨w, hs, hw, hto _ _ hG, hS, fun b z v hb hv hz => ?_⟩
    -- whatever begins with the tokens read so far begins with the current one
    have hcur := (s.current_prefix (by rw [hs, s'.toList_eq_cons])).trans hz
    exact hfix b z v (hfrom b z v hb hv hcur) hv hz
  · next e _ =>
    obtain ⟨w, t, rest, hs, hw, hspan, h⟩ := h
    have hex : ∀ {T : α → Prop}, G.Excludes F T w t → G'.Excludes F T w t := by
      intro T hex b z v hb hv hz
      exact hex b z v (hfrom b z v hb hv ((s.current_prefix hs).trans hz)) hv hz
    refine ⟨w, t, rest, hs, hw, hspan, ?_⟩
    rcases h with ⟨he, h⟩ | ⟨he, ⟨a, z, haz, hz⟩, h⟩
    · exact .inl ⟨he, hex h⟩
    · exact .inr ⟨he, ⟨a, z, hto a z haz, hz⟩, hex h⟩

/-- The phrase may be exchanged for an equivalent one. -/
lemma Reads.of_iff (h : Reads P G F S s) (hiff : ∀ a ts, G a ts ↔ G' a ts) : Reads P G' F S s :=
  h.congr (fun a ts => (hiff a ts).1) (fun a ts _ hG _ _ => (hiff a ts).2 hG)

lemma Reads.either_left {H : Phrase α} (h : Reads P G F S s)
    (hH : H.Excludes F (fun _ => True) [] s.current) : Reads P (G.either H) F S s := by
  refine h.congr (fun _ _ => .inl) ?_
  rintro a ts v (hG | hG) hv hcur
  · exact hG
  · exact absurd trivial (hH a ts v hG hv hcur)

lemma Reads.either_right {H : Phrase α} (h : Reads P H F S s)
    (hG : G.Excludes F (fun _ => True) [] s.current) : Reads P (G.either H) F S s := by
  refine h.congr (fun _ _ => .inr) ?_
  rintro a ts v (hH | hH) hv hcur
  · exact absurd trivial (hG a ts v hH hv hcur)
  · exact hH

/-- Fewer kinds may be asked to follow. -/
lemma Reads.weaken {F' : TokenKind → Prop} (h : Reads P G F S s) (hF : ∀ k, F' k → F k) :
    Reads P G F' S s := by
  unfold Reads at h ⊢
  split at h
  · obtain ⟨w, hs, hw, hG, hS, hfix⟩ := h
    exact ⟨w, hs, hw, hG, hS, fun b z v hb hv hz => hfix b z v hb (hv.mono hF) hz⟩
  · obtain ⟨w, t, rest, hs, hw, hspan, h⟩ := h
    refine ⟨w, t, rest, hs, hw, hspan, ?_⟩
    rcases h with ⟨he, h⟩ | ⟨he, hbeg, h⟩
    · exact .inl ⟨he, fun b z v hb hv hz => h b z v hb (hv.mono hF) hz⟩
    · exact .inr ⟨he, hbeg, fun b z v hb hv hz => h b z v hb (hv.mono hF) hz⟩

/-! ### Sequencing -/

lemma bind_apply (P : Grammar α) (Q : α → Grammar β) (s : TokenStream) :
    (P >>= Q) s = match P s with
      | .ok (a, s') => Q a s'
      | .error e => .error e := by
  change (P s >>= fun p => Q p.1 p.2) = _
  rcases P s with e | ⟨a, s'⟩ <;> rfl

lemma pure_apply (a : α) (s : TokenStream) : (pure a : Grammar α) s = .ok (a, s) := rfl

lemma discard_bind (P : Grammar α) (Q : PUnit → Grammar β) :
    discard P >>= Q = P >>= fun _ => Q ⟨⟩ := by
  have h : discard P = P >>= fun _ => pure ⟨⟩ := by
    rw [discard, map_const, Function.comp_apply, map_eq_pure_bind]
  rw [h, bind_assoc]
  simp only [pure_bind]

/-- Readers in sequence read phrases in sequence, if the second phrase or what follows it never
begins with a token that would continue the first. -/
lemma Reads.bind {H : α → Phrase β} {F₁ F₂ : TokenKind → Prop} {S₁ : α → Prop} {S₂ : β → Prop}
    (hP : Reads P G F₁ S₁ s) (hc : s.Closed)
    (hQ : ∀ a s', P s = .ok (a, s') → s'.Closed → S₁ a → Reads (Q a) (H a) F₂ S₂ s')
    (hF : ∀ a b z v, H a b z → Follows F₂ v → Follows F₁ (z ++ v))
    (hH : ∀ a, (H a).Possible) (hS : ∀ a b z, H a b z → S₂ b → S₁ a) :
    Reads (P >>= Q) (G.andThen H) F₂ S₂ s := by
  unfold Reads at hP ⊢
  rw [bind_apply]
  split at hP
  · next a s' ha =>
    obtain ⟨w, hs, hw, hG, hSa, hfix⟩ := hP
    have hQ := hQ a s' ha (hc.of_append hw hs) hSa
    -- whatever begins with the tokens up to the current one of `s'` has `a` and `w` in front
    have hsplit : ∀ {b z v u}, G.andThen H b z → Follows F₂ v → [s'.current] <+: u →
        w ++ u <+: z ++ v → ∃ z₂, z = w ++ z₂ ∧ H a b z₂ ∧ u <+: z₂ ++ v := by
      rintro b z v u ⟨a', z₁, z₂, hz₁, hz₂, rfl⟩ hv hu hz
      have hu' := (List.prefix_append_right_inj w).2 hu
      rw [List.append_assoc] at hz
      obtain ⟨rfl, rfl⟩ := hfix a' z₁ (z₂ ++ v) hz₁ (hF a' b z₂ v hz₂ hv) (hu'.trans hz)
      exact ⟨z₂, rfl, hz₂, (List.prefix_append_right_inj z₁).1 hz⟩
    unfold Reads at hQ
    split at hQ
    · next b s'' hb =>
      rw [hb]
      obtain ⟨w', hs', hw', hH', hSb, hfix'⟩ := hQ
      refine ⟨w ++ w', by rw [hs, hs', List.append_assoc], List.forall_mem_append.2 ⟨hw, hw'⟩,
        ⟨a, w, w', hG, hH', rfl⟩, hSb, ?_⟩
      intro b' z v hb hv hz
      rw [List.append_assoc] at hz
      have hcur := s'.current_prefix (hs'.trans (by rw [s''.toList_eq_cons]))
      obtain ⟨z₂, rfl, hz₂, hz'⟩ := hsplit hb hv hcur hz
      obtain ⟨rfl, rfl⟩ := hfix' b' z₂ v hz₂ hv hz'
      exact ⟨rfl, rfl⟩
    · next e he =>
      rw [he]
      obtain ⟨w', t, rest, hs', hw', hspan, h⟩ := hQ
      refine ⟨w ++ w', t, rest, by rw [hs, hs', List.append_assoc],
        List.forall_mem_append.2 ⟨hw, hw'⟩, hspan, ?_⟩
      have hex : ∀ {T : β → Prop}, (H a).Excludes F₂ T w' t →
          (G.andThen H).Excludes F₂ T (w ++ w') t := by
        intro T hex b z v hb hv hz
        rw [List.append_assoc] at hz
        obtain ⟨z₂, -, hz₂, hz'⟩ := hsplit hb hv (s'.current_prefix hs') hz
        exact hex b z₂ v hz₂ hv hz'
      rcases h with ⟨he, h⟩ | ⟨he, ⟨b, z, hb, hz⟩, h⟩
      · exact .inl ⟨he, hex h⟩
      · exact .inr ⟨he, ⟨b, w ++ z, ⟨a, w, z, hG, hb, rfl⟩,
          (List.prefix_append_right_inj w).2 hz⟩, hex h⟩
  · next e _ =>
    -- the first reader has given up, so the second phrase only completes or follows the first
    obtain ⟨w, t, rest, hs, hw, hspan, h⟩ := hP
    refine ⟨w, t, rest, hs, hw, hspan, ?_⟩
    rcases h with ⟨he, h⟩ | ⟨he, ⟨a, z, ha, hz⟩, h⟩
    · refine .inl ⟨he, ?_⟩
      rintro b _ v ⟨a, z₁, z₂, hz₁, hz₂, rfl⟩ hv hz hSb
      rw [List.append_assoc] at hz
      exact h a z₁ (z₂ ++ v) hz₁ (hF a b z₂ v hz₂ hv) hz (hS a b z₂ hz₂ hSb)
    · obtain ⟨b, z₂, hb⟩ := hH a
      refine .inr
        ⟨he, ⟨b, z ++ z₂, ⟨a, z, z₂, ha, hb, rfl⟩, hz.trans (List.prefix_append z z₂)⟩, ?_⟩
      rintro b' _ v ⟨a', z₁, z₂', hz₁, hz₂, rfl⟩ hv hz'
      rw [List.append_assoc] at hz'
      exact h a' z₁ (z₂' ++ v) hz₁ (hF a' b' z₂' v hz₂ hv) hz'

/-- Returning a value reads nothing. -/
lemma reads_pure {a : α} (hS : S a) : Reads (pure a) (nothing a) F S s := by
  rw [Reads, pure_apply]
  exact ⟨[], rfl, by simp, ⟨rfl, rfl⟩, hS, fun _ _ _ h _ _ => h⟩

/-- Reading a phrase, and returning a value made of what was read. -/
lemma Reads.map {f : α → β} {T : β → Prop} (h : Reads P G F S s) (hc : s.Closed)
    (hT : ∀ a, S a ↔ T (f a)) :
    Reads (P >>= fun a => pure (f a)) (G.andThen fun a => nothing (f a)) F T s := by
  refine h.bind hc (fun a s' _ _ hSa => reads_pure ((hT a).1 hSa))
    (fun a b z v => follows_nothing) (fun a => possible_nothing (f a)) ?_
  · rintro a _ _ ⟨rfl, rfl⟩ h
    exact (hT a).2 h

/-! ### Single tokens -/

lemma peek_apply (h : s.current.kind ≠ .fault) : peek s = .ok (s.current, s) := by
  simp only [peek, bind_apply]
  change (if s.current.kind = .fault then _ else _ : Grammar Token) s = _
  rw [if_neg h, pure_apply]

lemma peek_apply_fault (h : s.current.kind = .fault) :
    peek s = .error ⟨.fault s.current.value, s.current.span⟩ := by
  simp only [peek, bind_apply]
  change (if s.current.kind = .fault then _ else _ : Grammar Token) s = _
  rw [if_pos h]
  rfl

lemma unexpected_apply (h : s.current.kind ≠ .fault) (e : Expected) :
    (unexpected e : Grammar α) s = .error ⟨.unexpected e s.current, s.current.span⟩ := by
  rw [unexpected, bind_apply, peek_apply h]
  rfl

lemma advance_apply (h : s.current.kind ≠ .fault) : advance s = .ok (s.current, s.next) := by
  rw [advance, bind_apply, peek_apply h]
  rfl

lemma ne_fault_of_isEnd {k : TokenKind} (h : k.isEnd = false) : k ≠ .fault := by
  rintro rfl
  simp [TokenKind.isEnd] at h

/-- Before a choice by the current token, a fault is told. -/
lemma reads_peek {Q : Token → Grammar α} (hG : G.Possible)
    (hfault : s.current.kind = .fault → G.Excludes F (fun _ => True) [] s.current)
    (h : s.current.kind ≠ .fault → Reads (Q s.current) G F S s) :
    Reads (peek >>= Q) G F S s := by
  by_cases hk : s.current.kind = .fault
  · refine reads_of_error (e := ⟨.fault s.current.value, s.current.span⟩) ?_ (by simp) rfl hG
      (hfault hk)
    rw [bind_apply, peek_apply_fault hk]
  · exact (h hk).of_eq (by rw [bind_apply, peek_apply hk])

/-- A reader passes a token of a kind, or gives up. -/
def Passes (P : Grammar Token) (k : TokenKind) (s : TokenStream) : Prop :=
  (s.current.kind = k ∧ P s = .ok (s.current, s.next)) ∨
    (s.current.kind ≠ k ∧ ∃ e, P s = .error e ∧ e.problem ≠ .tooDeep ∧ e.span = s.current.span)

/-- Passing a token of a kind, and reading on behind it. -/
lemma Passes.reads {P : Grammar Token} {Q : Token → Grammar α} {H : Token → Phrase α}
    {k : TokenKind} (hP : Passes P k s) (hc : s.Closed) (hend : k.isEnd = false)
    (hQ : ∀ t s', s'.Closed → Reads (Q t) (H t) F S s') (hH : ∀ t, (H t).Possible) :
    Reads (P >>= Q) (after k H) F S s := by
  -- nothing can continue a single token, so anything may follow it
  have hP : Reads P (token k) (fun _ => True) (fun _ => True) s := by
    rcases hP with ⟨hk, h⟩ | ⟨hk, e, h, hdeep, hspan⟩
    · rw [← hk] at hend
      rw [Reads, h]
      refine ⟨[s.current], hc.toList_next hend, by simpa using hend, ⟨rfl, hk⟩, trivial, ?_⟩
      rintro t _ v ⟨rfl, -⟩ - hw
      obtain ⟨rfl, -⟩ := List.cons_prefix_cons.1 hw
      exact ⟨rfl, rfl⟩
    · refine reads_of_error h hdeep hspan ⟨⟨k, [], default⟩, _, rfl, rfl⟩ ?_
      rintro t _ v ⟨rfl, ht⟩ - hz
      obtain ⟨rfl, -⟩ := List.cons_prefix_cons.1 hz
      exact absurd ht hk
  refine (hP.bind hc (fun t s' _ hc' _ => hQ t s' hc') (fun _ _ z _ _ hv => hv.any z) hH
    fun _ _ _ _ _ => trivial).of_iff fun a ts => ?_
  constructor
  · rintro ⟨t, _, us, ⟨rfl, hk⟩, h, rfl⟩
    exact ⟨t, us, rfl, hk, h⟩
  · rintro ⟨t, us, rfl, hk, h⟩
    exact ⟨t, [t], us, ⟨rfl, hk⟩, h, rfl⟩

lemma passes_advance {k : TokenKind} (hk : s.current.kind = k) (hend : k.isEnd = false) :
    Passes advance k s :=
  .inl ⟨hk, advance_apply (ne_fault_of_isEnd (by rwa [hk]))⟩

lemma passes_expect {k : TokenKind} (hend : k.isEnd = false) : Passes (expect k) k s := by
  rw [Passes, expect, bind_apply]
  by_cases hf : s.current.kind = .fault
  · rw [peek_apply_fault hf]
    exact .inr ⟨by rw [hf]; exact (ne_fault_of_isEnd hend).symm, _, rfl, by simp, rfl⟩
  rw [peek_apply hf]
  by_cases hk : s.current.kind = k
  · simp only [if_pos hk]
    exact .inl ⟨hk, advance_apply hf⟩
  · have hun : (unexpected (.token k) : Grammar Token) s = _ := unexpected_apply hf _
    simp only [if_neg hk]
    refine .inr ⟨hk, ?_⟩
    split
    · split
      · exact ⟨_, rfl, by simp, rfl⟩
      · exact ⟨_, hun, by simp, rfl⟩
    · exact ⟨_, hun, by simp, rfl⟩

lemma passes_expectName {k : TokenKind} {role : NameRole} (hend : k.isEnd = false) :
    Passes (expectName k role) k s := by
  rw [Passes, expectName, bind_apply]
  by_cases hf : s.current.kind = .fault
  · rw [peek_apply_fault hf]
    exact .inr ⟨by rw [hf]; exact (ne_fault_of_isEnd hend).symm, _, rfl, by simp, rfl⟩
  rw [peek_apply hf]
  by_cases hk : s.current.kind = k
  · simp only [if_pos hk]
    exact .inl ⟨hk, advance_apply hf⟩
  · simp only [if_neg hk]
    refine .inr ⟨hk, ?_⟩
    split
    · exact ⟨_, rfl, by simp, rfl⟩
    · exact ⟨_, unexpected_apply hf _, by simp, rfl⟩

/-! ### Repetition -/

/-- Reading a phrase again and again as long as the current token is of the kind with which
the phrase begins.  That kind may not follow the repetition. -/
lemma reads_whileAt {k : TokenKind} {part : Grammar α} (hend : k.isEnd = false)
    (hstart : G.StartsWith (· = k)) (hk : ¬ F k) (hfault : ¬ F .fault)
    (hpart : ∀ s : TokenStream, s.Closed → s.current.kind = k →
      Reads part G (fun x => x = k ∨ F x) S s) (s : TokenStream) (hc : s.Closed) :
    Reads (whileAt k part) (Many G) F (fun as => ∀ a ∈ as, S a) s := by
  by_cases hf : s.current.kind = .fault
  · refine reads_of_error (e := ⟨.fault s.current.value, s.current.span⟩) ?_ (by simp) rfl
      (possible_many G) (excludes_many hstart ?_ (by rwa [hf]))
    · rw [whileAt, peek_apply_fault hf]
    · rw [hf]
      exact (ne_fault_of_isEnd hend).symm
  by_cases hkind : s.current.kind = k
  · have hone := hpart s hc hkind
    -- the part is never empty, so the loop does not stop after it for want of progress
    have hshort : ∀ a s', part s = .ok (a, s') → s'.ahead.length < s.ahead.length := by
      intro a s' h
      rw [Reads, h] at hone
      obtain ⟨w, hs, -, hG, -⟩ := hone
      obtain ⟨t, us, rfl, -⟩ := hstart a w hG
      have := congrArg List.length hs
      simp only [TokenStream.toList, List.cons_append, List.length_cons, List.length_append] at this
      omega
    have heq : whileAt k part s =
        (part >>= fun a => whileAt k part >>= fun as => pure (a :: as)) s := by
      rw [whileAt, peek_apply hf, bind_apply]
      simp only [if_pos hkind]
      rcases h : part s with e | ⟨a, s'⟩
      · rfl
      · simp only [dif_pos (hshort a s' h), bind_apply]
        rcases whileAt k part s' with e | ⟨as, s''⟩ <;> rfl
    have hboth : Reads (part >>= fun a => whileAt k part >>= fun as => pure (a :: as))
        (G.andThen fun a => (Many G).andThen fun as => nothing (a :: as)) F
        (fun as => ∀ a ∈ as, S a) s := by
      refine hone.bind hc (fun a s' ha hc' hSa => ?_) ?_ ?_ ?_
      · have := hshort a s' ha
        refine (reads_whileAt hend hstart hk hfault hpart s' hc').map hc' fun as => ?_
        simp [hSa]
      · rintro a _ _ v ⟨as, us, _, has, ⟨rfl, rfl⟩, rfl⟩ hv
        rw [List.append_nil]
        exact follows_many hstart has hv
      · exact fun a => possible_andThen (possible_many G) fun _ => possible_nothing _
      · rintro a _ _ ⟨as, us, _, has, ⟨rfl, rfl⟩, rfl⟩ h
        exact h a (by simp)
    refine (hboth.of_eq heq).congr (fun as ts h => many_iff.2 (.inr h)) ?_
    -- the repetition is not empty here, since its kind may not follow
    rintro as ts v h ⟨t, vs, rfl, ht⟩ hcur
    rcases many_iff.1 h with ⟨rfl, rfl⟩ | h
    · obtain ⟨rfl, -⟩ := List.cons_prefix_cons.1 hcur
      exact absurd (hkind ▸ ht) hk
    · exact h
  · have happly : whileAt k part s = .ok ([], s) := by
      rw [whileAt, peek_apply hf]
      simp only [if_neg hkind]
    rw [Reads, happly]
    refine ⟨[], rfl, by simp, .nil, by simp, fun as z v has hv hz => ?_⟩
    rcases has with _ | ⟨ha, -⟩
    · exact ⟨rfl, rfl⟩
    · obtain ⟨t, us, rfl, ht⟩ := hstart _ _ ha
      obtain ⟨rfl, -⟩ := List.cons_prefix_cons.1 hz
      exact absurd ht hkind
termination_by s.ahead.length

end Grammar

end Idl
