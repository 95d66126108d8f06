/-
# Symbols of a module

The symbols of a document mirror the module that it holds: there is one for each declaration, with
its name, the kind of its body and its members.  A symbol stands where the first declaration of
its name does: its ranges are those of the name, of everything from the word `type` to the last
token, and of the names of fields or variants (`Document.symbols_of_parse`).

The outline finds declarations and members by their surroundings, two tokens at a time.  What it
collects from the tokens of a phrase does not depend on what stands around them
(`Outline.Section.Collects`), so the members of a body are put together along the grammar.
-/
import Idl.Proofs.Canonical.Comments
import Idl.Proofs.Document.Walks
import Idl.Proofs.Grammar.Kinds
import Mathlib.Data.List.Find

namespace Idl

variable {_ : Machine}

open Phrase

/-! ### Declarations with the tokens of their names -/

/-- The tokens of a field, with the one that gives the name. -/
def Field.NamedBy : Phrase (Field × Token) := fun p ts => p.1.SpelledBy ts ∧ ts.head? = some p.2

/-- The tokens of a body, with those that give the names of its fields or variants. -/
inductive Body.NamedBy : Phrase (Body × List Token)
  /-- A body without members. -/
  | plain {body : Body} {ts : List Token} (hbody : body.SpelledBy ts)
      (hmembers : body.members = []) : NamedBy (body, []) ts
  /-- The fields of a record. -/
  | record {opening closing : Token} {first : Field × Token} {more : List (Field × Token)}
      {ts us : List Token} (hopening : opening.kind = .mark .openBrace)
      (hfirst : Field.NamedBy first ts)
      (hmore : Many (behind (.mark .comma) Field.NamedBy) more us)
      (hclosing : closing.kind = .mark .closeBrace) :
      NamedBy (.record ((first :: more).map Prod.fst), (first :: more).map Prod.snd)
        (opening :: ts ++ us ++ [closing])
  /-- The variants of a sum. -/
  | sum {opening first closing : Token} {more : List Token} {ts : List Token}
      (hopening : opening.kind = .mark .openBracket) (hfirst : first.kind = .upperName)
      (hmore : Many (behind (.mark .pipe) (token .upperName)) more ts)
      (hclosing : closing.kind = .mark .closeBracket) :
      NamedBy (.sum ((first :: more).map Token.value), first :: more)
        (opening :: first :: ts ++ [closing])

/-- The tokens of a declaration that show where it stands. -/
structure Site where
  /-- The word `type`. -/
  opening : Token
  /-- The name. -/
  name : Token
  /-- The names of the fields or variants. -/
  members : List Token
  /-- The last token. -/
  last : Token

/-- The tokens of a declaration, with those that show where it stands. -/
inductive Declaration.NamedBy : Phrase (Declaration × Site)
  /-- A name, a body, and the annotations of the declaration. -/
  | mk {head name colon last : Token} {body : Body} {members : List Token}
      {annotations : List Annotation} {ts us vs : List Token} (hhead : head.kind = .keyword .type)
      (hname : name.kind = .upperName) (hcolon : colon.kind = .mark .colon)
      (hbody : Body.NamedBy (body, members) ts)
      (hannotations : Many Annotation.SpelledBy annotations us)
      (hlast : colon :: ts ++ us = vs ++ [last]) :
      NamedBy (⟨name.value, body, annotations⟩, ⟨head, name, members, last⟩)
        (head :: name :: colon :: ts ++ us)

/-! ### Symbols that fit -/

namespace Symbol

/-- A symbol has the name of a declaration, the kind of its body, and its fields or variants. -/
def Mirrors (x : Symbol) (d : Declaration) : Prop :=
  x.name = d.name ∧ match d.body with
    | .record fields => x.kind = .record ∧
        x.children.map (fun c => (c.name, c.detail)) = fields.map fun f =>
          (f.name, some f.type.render)
    | .sum variants => x.kind = .sum ∧
        x.children.map (fun c => (c.name, c.detail)) = variants.map fun v => (v, none)
    | .alias _ | .wrap _ => x.kind = .single ∧ x.children = []

/-- A symbol has its ranges from a declaration: the name, everything from the word `type` to the
last token, and the names of the fields or variants.  Where there are no more of these, the name
of the declaration stands in. -/
structure StandsAt (x : Symbol) (site : Site) : Prop where
  /-- The name. -/
  selection : x.selection = site.name.span.range
  /-- The whole declaration. -/
  range : x.range = (⟨site.opening.span.first, site.last.span.last⟩ : Span).range
  /-- The fields or variants. -/
  children : ∀ (i : Nat) (c : MemberSymbol), x.children[i]? = some c →
    c.range = (site.members[i]?.getD site.name).span.range

end Symbol

/-- The symbols of a document are those of declarations, in their order, and each stands where the
first declaration of its name does. -/
structure Document.Shows (d : Document) (parts : List (Declaration × Site)) : Prop where
  /-- There is one symbol for each declaration. -/
  length : d.symbols.length = parts.length
  /-- The symbol of each declaration has its name, the kind of its body, and its members. -/
  mirrors : ∀ (i : Nat) p x, parts[i]? = some p → d.symbols[i]? = some x → x.Mirrors p.1
  /-- The symbol of the first declaration of a name stands where this one does, and its children
  stand where the names of the members do. -/
  first : ∀ before p after (x : Symbol), parts = before ++ p :: after →
    d.symbols[before.length]? = some x → (∀ q ∈ before, q.1.name ≠ p.1.name) →
      x.StandsAt p.2 ∧ x.children.map (·.range) = p.2.members.map fun t => t.span.range
  /-- The symbol of a later declaration of the name stands where the first one does. -/
  later : ∀ before q between p after (x : Symbol), parts = before ++ q :: (between ++ p :: after) →
    d.symbols[(before ++ q :: between).length]? = some x →
      (∀ r ∈ before, r.1.name ≠ q.1.name) → p.1.name = q.1.name → x.StandsAt q.2

/-! ### Naming what is spelled -/

namespace Phrase

variable {α β : Type} {G : Phrase α} {H : Phrase β} {as : List α} {ts : List Token}

/-- Phrases that can be told more about one by one can be so in a row. -/
lemma Many.exists_map (h : Many G as ts) (f : β → α)
    (hG : ∀ a us, G a us → ∃ b, f b = a ∧ H b us) : ∃ bs, bs.map f = as ∧ Many H bs ts := by
  induction h with
  | nil => exact ⟨[], rfl, .nil⟩
  | cons first _ ih =>
    obtain ⟨b, rfl, hb⟩ := hG _ _ first
    obtain ⟨bs, rfl, hbs⟩ := ih
    exact ⟨b :: bs, rfl, .cons hb hbs⟩

lemma Many.map (h : Many G as ts) (f : α → β) (hG : ∀ a us, G a us → H (f a) us) :
    Many H (as.map f) ts := by
  induction h with
  | nil => exact .nil
  | cons first _ ih => exact .cons (hG _ _ first) ih

lemma behind_map {k : TokenKind} {a : α} (f : α → β) (hG : ∀ a us, G a us → H (f a) us)
    (h : behind k G a ts) : behind k H (f a) ts := by
  obtain ⟨t, us, rfl, ht, ha⟩ := h
  exact ⟨t, us, rfl, ht, hG a us ha⟩

lemma exists_map_of_behind {k : TokenKind} {a : α} (f : β → α)
    (hG : ∀ a us, G a us → ∃ b, f b = a ∧ H b us) (h : behind k G a ts) :
    ∃ b, f b = a ∧ behind k H b ts := by
  obtain ⟨t, us, rfl, ht, ha⟩ := h
  obtain ⟨b, rfl, hb⟩ := hG a us ha
  exact ⟨b, rfl, t, us, rfl, ht, hb⟩

end Phrase

variable {ts us : List Token} {t before : Token} {p : Declaration × Site}

lemma Field.SpelledBy.exists_namedBy {f : Field} (h : f.SpelledBy ts) :
    ∃ q, Prod.fst q = f ∧ Field.NamedBy q ts := by
  obtain ⟨hname, hcolon, htype, hnotes⟩ := h
  exact ⟨(_, _), rfl, .mk hname hcolon htype hnotes, rfl⟩

lemma Body.SpelledBy.exists_namedBy {b : Body} (h : b.SpelledBy ts) :
    ∃ ms, Body.NamedBy (b, ms) ts := by
  rcases h with htype | ⟨hhead, htype⟩ | ⟨hopening, hclosing⟩ |
    ⟨hopening, hfield, hfields, hclosing⟩ | ⟨hopening, hfirst, hvariants, hclosing⟩
  · exact ⟨[], .plain (.alias htype) rfl⟩
  · exact ⟨[], .plain (.wrap hhead htype) rfl⟩
  · exact ⟨[], .plain (.emptyRecord hopening hclosing) rfl⟩
  · obtain ⟨first, rfl, hfirst⟩ := hfield.exists_namedBy
    obtain ⟨more, rfl, hmore⟩ := hfields.exists_map Prod.fst fun _ _ =>
      exists_map_of_behind Prod.fst fun _ _ => Field.SpelledBy.exists_namedBy
    exact ⟨_, .record hopening hfirst hmore hclosing⟩
  · have hword (x : Text) (us : List Token) (h : word .upperName x us) :
        ∃ t, Token.value t = x ∧ token .upperName t us := by
      obtain ⟨t, rfl, ht, rfl⟩ := h
      exact ⟨t, rfl, rfl, ht⟩
    obtain ⟨more, rfl, hmore⟩ := hvariants.exists_map Token.value fun _ _ =>
      exists_map_of_behind Token.value hword
    exact ⟨_, .sum hopening hfirst hmore hclosing⟩

lemma Declaration.SpelledBy.exists_namedBy {d : Declaration} (h : d.SpelledBy ts) :
    ∃ q, Prod.fst q = d ∧ Declaration.NamedBy q ts := by
  obtain ⟨hhead, hname, hcolon, hbody, hnotes⟩ := h
  obtain ⟨ms, hbody⟩ := hbody.exists_namedBy
  obtain ⟨vs, last, hlast⟩ := List.eq_nil_or_concat' _ |>.resolve_left (List.cons_ne_nil _ _)
  exact ⟨(_, _), rfl, .mk hhead hname hcolon hbody hnotes hlast⟩

/-! ### What is collected from phrases -/

namespace Outline.Section

variable {ps qs : List Span} {rest : List Token}

/-- A name behind such a token names a variant. -/
def OpensVariant (t : Token) : Prop := t.kind = .mark .openBracket ∨ t.kind = .mark .pipe

/-- The names of members that are collected from tokens, whatever stands around them. -/
def Collects (ts : List Token) (ps : List Span) : Prop :=
  ∀ (before : Token) (rest : List Token), ¬ OpensVariant before →
    membersAfter before (ts ++ rest) = ps ++ membersAfter before rest

lemma membersAfter_cons (h : ¬ OpensVariant before) : membersAfter before (t :: rest) =
    (if t.kind = .lowerName ∧ rest.head?.map (·.kind) = some (.mark .colon) then [t.span]
      else []) ++ membersAfter t rest := by
  obtain ⟨hbracket, hpipe⟩ := not_or.1 h
  simp [membersAfter, isMember, hbracket, hpipe]

/-- All tokens that open no variant are alike. -/
lemma membersAfter_congr (h : ¬ OpensVariant before) (ht : ¬ OpensVariant t) :
    membersAfter t rest = membersAfter before rest := by
  cases rest with
  | nil => rfl
  | cons u rest => rw [membersAfter_cons h, membersAfter_cons ht]

lemma collects_nil : Collects [] [] := fun _ _ _ => rfl

lemma Collects.append (h : Collects ts ps) (h' : Collects us qs) :
    Collects (ts ++ us) (ps ++ qs) := by
  intro before rest hbefore
  rw [List.append_assoc, h before _ hbefore, h' before rest hbefore, List.append_assoc]

/-- No member has its name from a token that is no lower-case name. -/
lemma collects_singleton (ht : t.kind ≠ .lowerName) (hopens : ¬ OpensVariant t) :
    Collects [t] [] := by
  intro before rest hbefore
  rw [List.singleton_append, membersAfter_cons hbefore, if_neg fun h => ht h.1,
    membersAfter_congr hbefore hopens]

/-- A field has its name from a lower-case name in front of a colon. -/
lemma collects_field {name colon : Token} (hname : name.kind = .lowerName)
    (hcolon : colon.kind = .mark .colon) : Collects [name, colon] [name.span] := by
  intro before rest hbefore
  rw [List.cons_append, membersAfter_cons hbefore, if_pos ⟨hname, by simp [hcolon]⟩,
    membersAfter_congr hbefore (by simp [OpensVariant, hname]),
    collects_singleton (by simp [hcolon]) (by simp [OpensVariant, hcolon]) before rest hbefore]
  rfl

/-- A variant has its name from an upper-case name behind a bracket or a bar. -/
lemma collects_variant {mark name : Token} (hmark : OpensVariant mark)
    (hname : name.kind = .upperName) : Collects [mark, name] [name.span] := by
  intro before rest hbefore
  have hlower : mark.kind ≠ .lowerName := by rcases hmark with h | h <;> simp [h]
  have hvariant : (mark.kind = .mark .openBracket || mark.kind = .mark .pipe) = true := by
    simpa [OpensVariant] using hmark
  rw [List.cons_append, membersAfter_cons hbefore, if_neg fun h => hlower h.1, List.nil_append,
    List.singleton_append, membersAfter,
    membersAfter_congr hbefore (t := name) (by simp [OpensVariant, hname])]
  simp [isMember, hname, hvariant]

/-- From types and annotations no names are collected. -/
lemma collects_of_isInner (h : ∀ t ∈ ts, t.kind.isInner)
    (hlast : ∀ t ∈ ts.getLast?, t.kind ≠ .lowerName) : Collects ts [] := by
  induction ts with
  | nil => exact collects_nil
  | cons t ts ih =>
    obtain ⟨ht, hts⟩ := List.forall_mem_cons.1 h
    have hopens (u : Token) (hu : u.kind.isInner) : ¬ OpensVariant u := by
      rintro (hk | hk) <;> simp [hk, TokenKind.isInner] at hu
    intro before rest hbefore
    rw [List.cons_append, membersAfter_cons hbefore, membersAfter_congr hbefore (hopens t ht)]
    cases ts with
    | nil =>
      rw [if_neg fun h => hlast t rfl h.1]
      rfl
    | cons u ts =>
      -- the next token is no colon
      have hu : u.kind ≠ .mark .colon := by
        intro hk
        have hinner := (List.forall_mem_cons.1 hts).1
        simp [hk, TokenKind.isInner] at hinner
      rw [if_neg (by simp [hu]), ih hts (by simpa using hlast) before rest hbefore]
      rfl

lemma Collects.many {α : Type} {G : Phrase α} {f : α → List Span} {as : List α}
    (h : Many G as ts) (hG : ∀ a us, G a us → Collects us (f a)) : Collects ts (as.flatMap f) := by
  induction h with
  | nil => exact collects_nil
  | cons first _ ih => exact (hG _ _ first).append ih

end Outline.Section

open Outline.Section

lemma TypeExpr.SpelledBy.collects {e : TypeExpr} (h : e.SpelledBy ts) : Collects ts [] := by
  have hsingle (k : TokenKind) (t : Token) (ht : t.kind = k) (hk : k.isInner)
      (hlower : k ≠ .lowerName) : Collects [t] [] :=
    collects_of_isInner (by simpa [ht] using hk) (by simpa [ht] using hlower)
  induction h with
  | @primitive t w p hword hspelling =>
    have hw := (SpelledBy.primitive hword hspelling).isInner t (List.mem_singleton_self t)
    exact hsingle _ t hword (hword ▸ hw) (by simp)
  | reference hfirst hmore =>
    have hmore := Collects.many (f := fun _ => []) hmore fun x us hx => by
      obtain ⟨dot, _, rfl, hdot, t, rfl, ht, -⟩ := hx
      exact (hsingle _ dot hdot rfl (by simp)).append (hsingle _ t ht rfl (by simp))
    rw [List.flatMap_eq_nil_iff.2 fun _ _ => rfl] at hmore
    exact (hsingle _ _ hfirst rfl (by simp)).append hmore
  | array hhead hopening _ hclosing ih | maybe hhead hopening _ hclosing ih =>
    exact (hsingle _ _ hhead rfl (by simp)).append <|
      (hsingle _ _ hopening rfl (by simp)).append <|
        ih.append (hsingle _ _ hclosing rfl (by simp))

lemma collects_annotations {as : List Annotation} (h : Many Annotation.SpelledBy as ts) :
    Collects ts [] := by
  have hmany := Collects.many (f := fun _ => []) h fun a us ha =>
    collects_of_isInner ha.isInner <| by
      obtain ⟨-, -, -, hclosing⟩ := ha
      simp [List.getLast?_cons, hclosing]
  rwa [List.flatMap_eq_nil_iff.2 fun _ _ => rfl] at hmany

lemma Field.NamedBy.collects {p : Field × Token} (h : Field.NamedBy p ts) :
    Collects ts [p.2.span] := by
  obtain ⟨f, name⟩ := p
  obtain ⟨⟨hname, hcolon, htype, hnotes⟩, hhead⟩ := h
  obtain rfl := Option.some.inj hhead
  exact ((collects_field hname hcolon).append htype.collects).append
    (collects_annotations hnotes)

lemma Body.NamedBy.collects {p : Body × List Token} (h : Body.NamedBy p ts) :
    Collects ts (p.2.map Token.span) := by
  have hmark (m : Mark) (t : Token) (ht : t.kind = .mark m) (hm : m ≠ .openBracket)
      (hpipe : m ≠ .pipe) : Collects [t] [] :=
    collects_singleton (by simp [ht]) (by simp [OpensVariant, ht, hm, hpipe])
  cases h with
  | plain hbody hmembers =>
    rcases hbody with htype | ⟨hhead, htype⟩ | ⟨hopening, hclosing⟩ | _ | _
    · exact htype.collects
    · exact (collects_singleton (by simp [hhead]) (by simp [OpensVariant, hhead])).append
        htype.collects
    · exact (hmark _ _ hopening (by simp) (by simp)).append
        (hmark _ _ hclosing (by simp) (by simp))
    · cases hmembers
    · cases hmembers
  | record hopening hfirst hmore hclosing =>
    have hmore := Collects.many (f := fun q => [q.2.span]) hmore fun q us hq => by
      obtain ⟨comma, us, rfl, hcomma, hq⟩ := hq
      exact (hmark _ comma hcomma (by simp) (by simp)).append hq.collects
    rw [← List.map_eq_flatMap] at hmore
    have hall := (((hmark _ _ hopening (by simp) (by simp)).append hfirst.collects).append
      hmore).append (hmark _ _ hclosing (by simp) (by simp))
    rw [List.map_map]
    rwa [List.append_nil] at hall
  | sum hopening hfirst hmore hclosing =>
    have hmore := Collects.many (f := fun t => [t.span]) hmore fun t us ht => by
      obtain ⟨pipe, us, rfl, hpipe, rfl, ht⟩ := ht
      exact collects_variant (.inr hpipe) ht
    rw [← List.map_eq_flatMap] at hmore
    have hall := ((collects_variant (.inl hopening) hfirst).append hmore).append
      (hmark _ _ hclosing (by simp) (by simp))
    rwa [List.append_nil] at hall

/-! ### Declarations and sections -/

/-- A section holds the tokens of a declaration. -/
structure Outline.Section.Holds (s : Section) (p : Declaration × Site) : Prop where
  /-- It begins with the word `type` of the declaration. -/
  opening : s.opening = p.2.opening
  /-- Its name is that of the declaration. -/
  name : s.name = p.2.name ∧ s.name.value = p.1.name
  /-- It ends with the last token of the declaration. -/
  last : s.last = p.2.last
  /-- The members that are collected from it are those of the declaration. -/
  members : s.members = p.2.members.map Token.span

lemma Body.NamedBy.spelledBy {p : Body × List Token} (h : Body.NamedBy p ts) :
    p.1.SpelledBy ts := by
  cases h with
  | plain hbody => exact hbody
  | record hopening hfirst hmore hclosing =>
    exact .record hopening hfirst.1 (hmore.map Prod.fst fun _ _ => behind_map Prod.fst
      fun _ _ h => h.1) hclosing
  | sum hopening hfirst hmore hclosing =>
    exact .sum hopening hfirst (hmore.map Token.value fun _ _ => behind_map Token.value
      fun t _ h => ⟨t, h.1, h.2, rfl⟩) hclosing

lemma Body.NamedBy.length {p : Body × List Token} (h : Body.NamedBy p ts) :
    p.1.members.length = p.2.length := by
  cases h with
  | plain hbody hmembers => simp [hmembers]
  | record | sum => simp [Body.members]

lemma Declaration.NamedBy.length (h : Declaration.NamedBy p ts) :
    p.1.body.members.length = p.2.members.length := by
  obtain ⟨-, -, -, hbody, -, -⟩ := h
  exact hbody.length

lemma Declaration.NamedBy.exists_section (h : Declaration.NamedBy p ts) :
    ∃ s : Outline.Section, s.tokens = ts ∧ s.Holds p ∧ Outline.beginsAt s.opening s.name ∧
      ∀ t ∈ s.following, t.kind ≠ .keyword .type := by
  rcases h with @⟨head, name, colon, last, body, members, annotations, ts, us, vs, hhead, hname,
    hcolon, hbody, hnotes, hlast⟩
  have hmembers : Collects ([colon] ++ ts ++ us) ([] ++ members.map Token.span ++ []) :=
    ((collects_singleton (by simp [hcolon]) (by simp [OpensVariant, hcolon])).append
      hbody.collects).append (collects_annotations hnotes)
  have hspans := hmembers name [] (by simp [OpensVariant, hname])
  refine ⟨⟨head, name, colon :: ts ++ us⟩, rfl, ⟨rfl, ⟨rfl, rfl⟩, ?_, ?_⟩, ?_, ?_⟩
  · simp [Outline.Section.last, hlast]
  · rw [List.append_nil, List.append_nil] at hspans
    exact hspans.trans (List.append_nil _)
  · simp [Outline.beginsAt, hhead, hname]
  · have hbody := fun t ht => TokenKind.ne_type_of_isBodyPart (hbody.spelledBy.isBodyPart t ht)
    have hnotes := fun t ht => TokenKind.ne_type_of_isBodyPart
      (isBodyPart_annotations hnotes t ht)
    simpa [hcolon, or_imp, forall_and] using And.intro hbody hnotes

/-- The tokens of declarations are made up of sections, one for each. -/
lemma Declaration.exists_sections {parts : List (Declaration × Site)}
    (h : Many Declaration.NamedBy parts ts) :
    ∃ rows : List ((Declaration × Site) × Outline.Section), rows.map Prod.fst = parts ∧
      (rows.map Prod.snd).flatMap Outline.Section.tokens = ts ∧
        ∀ r ∈ rows, Declaration.NamedBy r.1 r.2.tokens ∧ r.2.Holds r.1 ∧
          Outline.beginsAt r.2.opening r.2.name ∧
            ∀ t ∈ r.2.following, t.kind ≠ .keyword .type := by
  induction h with
  | nil => exact ⟨[], rfl, rfl, by simp⟩
  | cons first _ ih =>
    obtain ⟨s, rfl, hs⟩ := first.exists_section
    obtain ⟨rows, rfl, rfl, hrows⟩ := ih
    exact ⟨(_, s) :: rows, rfl, rfl, List.forall_mem_cons.2 ⟨⟨first, hs⟩, hrows⟩⟩

/-! ### Symbols and sections -/

namespace Document

variable {owner : Span} {ms : List (Text × Option Text)} {ps : List Span}

lemma map_memberSymbols : (memberSymbols owner ms ps).map (fun c => (c.name, c.detail)) = ms := by
  fun_induction memberSymbols owner ms ps with
  | case1 => rfl
  | case2 name detail ms ih | case3 name detail ms p ps ih => rw [List.map_cons, ih]

lemma range_of_mem_memberSymbols {i : Nat} {c : MemberSymbol}
    (h : (memberSymbols owner ms ps)[i]? = some c) : c.range = (ps[i]?.getD owner).range := by
  fun_induction memberSymbols owner ms ps generalizing i with
  | case1 => cases h
  | case2 name detail ms ih | case3 name detail ms p ps ih =>
    cases i with
    | zero => cases h; rfl
    | succ i => simpa using ih h

/-- If there are as many spans as members, no other span stands in. -/
lemma map_range_memberSymbols (h : ms.length = ps.length) :
    (memberSymbols owner ms ps).map (·.range) = ps.map Span.range := by
  fun_induction memberSymbols owner ms ps with
  | case1 => rw [List.length_eq_zero_iff.1 h.symm]; rfl
  | case2 => cases h
  | case3 name detail ms p ps ih => rw [List.map_cons, ih (Nat.succ.inj h), List.map_cons]

end Document

namespace Declaration

variable {s : Outline.Section}

lemma symbolIn_mirrors (d : Declaration) (s : Outline.Section) : (d.symbolIn s).Mirrors d := by
  have hchildren : (d.symbolIn s).children.map (fun c => (c.name, c.detail)) = d.body.members :=
    Document.map_memberSymbols
  obtain ⟨name, body, annotations⟩ := d
  refine ⟨rfl, ?_⟩
  rcases body with _ | _ | fields | variants
  · exact ⟨rfl, List.map_eq_nil_iff.1 hchildren⟩
  · exact ⟨rfl, List.map_eq_nil_iff.1 hchildren⟩
  · exact ⟨rfl, hchildren⟩
  · exact ⟨rfl, hchildren⟩

lemma symbolIn_standsAt (h : s.Holds p) (d : Declaration) : (d.symbolIn s).StandsAt p.2 := by
  refine ⟨by rw [← h.name.1]; rfl, by rw [← h.opening, ← h.last]; rfl, fun i c hc => ?_⟩
  rw [Document.range_of_mem_memberSymbols hc, h.members, h.name.1, List.getElem?_map]
  cases p.2.members[i]? <;> rfl

lemma map_range_symbolIn (h : s.Holds p) (hp : p.1.body.members.length = p.2.members.length) :
    (p.1.symbolIn s).children.map (·.range) = p.2.members.map fun t => t.span.range := by
  have hlength : p.1.body.members.length = s.members.length := by simp [h.members, hp]
  rw [symbolIn, Document.map_range_memberSymbols hlength, h.members, List.map_map]
  rfl

end Declaration

/-- If a function has a value everywhere in a list, its values are in the places of the members. -/
lemma getElem?_filterMap {α β : Type} {f : α → Option β} {as : List α}
    (h : ∀ a ∈ as, ∃ b, f a = some b) :
    (as.filterMap f).length = as.length ∧ ∀ i : Nat, (as.filterMap f)[i]? = as[i]?.bind f := by
  induction as with
  | nil => simp
  | cons a as ih =>
    obtain ⟨⟨b, hb⟩, has⟩ := List.forall_mem_cons.1 h
    obtain ⟨hlength, hget⟩ := ih has
    rw [List.filterMap_cons_some hb]
    refine ⟨by simp [hlength], fun i => ?_⟩
    cases i with
    | zero => simp [hb]
    | succ i => simpa using hget i

namespace Document

variable {rows : List ((Declaration × Site) × Outline.Section)} {tokens : List Token}
  {r : (Declaration × Site) × Outline.Section}

/-- Where declarations have sections, each takes its ranges from the first one of its name. -/
lemma symbol?_eq (hended : Outline.Ended tokens)
    (hsections : Outline.sections tokens = rows.map Prod.snd) (hrows : ∀ r ∈ rows, r.2.Holds r.1)
    (d : Declaration) :
    symbol? (.ofTokens tokens) d =
      (rows.find? fun r => r.1.1.name = d.name).map fun r => d.symbolIn r.2 := by
  rw [symbol?_ofTokens hended, hsections, List.find?_map, Option.map_map]
  have hfind : rows.find? ((fun s : Outline.Section => d.name == s.name.value) ∘ Prod.snd) =
      rows.find? fun r => r.1.1.name = d.name := by
    refine List.find?_congr fun r hr => ?_
    rw [Function.comp_apply, (hrows r hr).name.2, Bool.beq_eq_decide_eq, decide_eq_decide]
    exact eq_comm
  rw [hfind]
  rfl

lemma exists_symbol? (hended : Outline.Ended tokens)
    (hsections : Outline.sections tokens = rows.map Prod.snd) (hrows : ∀ r ∈ rows, r.2.Holds r.1)
    (hr : r ∈ rows) :
    ∃ x, symbol? (.ofTokens tokens) r.1.1 = some x := by
  have hfind : (rows.find? fun q => q.1.1.name = r.1.1.name).isSome := by
    rw [List.find?_isSome]
    exact ⟨r, hr, by simp⟩
  obtain ⟨q, hq⟩ := Option.isSome_iff_exists.1 hfind
  exact ⟨_, by rw [symbol?_eq hended hsections hrows, hq]; rfl⟩

/-- Declarations with their sections are shown by the symbols that the outline tells for them. -/
lemma shows_of_sections {d : Document} (hended : Outline.Ended tokens)
    (hsections : Outline.sections tokens = rows.map Prod.snd)
    (hrows : ∀ r ∈ rows, Declaration.NamedBy r.1 r.2.tokens ∧ r.2.Holds r.1)
    (hsymbols : d.symbols = rows.filterMap fun r => symbol? (.ofTokens tokens) r.1.1) :
    d.Shows (rows.map Prod.fst) := by
  have hholds (r) (hr : r ∈ rows) : r.2.Holds r.1 := (hrows r hr).2
  obtain ⟨hlength, hget⟩ := getElem?_filterMap (f := fun r => symbol? (.ofTokens tokens) r.1.1)
    fun r hr => exists_symbol? hended hsections hholds hr
  rw [← hsymbols] at hlength hget
  -- the symbol in the place of a declaration is told by the first section of its name
  have hsymbol (i : Nat) (r) (x : Symbol) (hr : rows[i]? = some r)
      (hx : d.symbols[i]? = some x) :
      ∃ q, rows.find? (fun q => q.1.1.name = r.1.1.name) = some q ∧ r.1.1.symbolIn q.2 = x := by
    rw [hget, hr, Option.bind_some, symbol?_eq hended hsections hholds] at hx
    exact Option.map_eq_some_iff.1 hx
  refine ⟨by rw [hlength, List.length_map], fun i p x hp hx => ?_, ?_, ?_⟩
  · rw [List.getElem?_map] at hp
    obtain ⟨r, hr, rfl⟩ := Option.map_eq_some_iff.1 hp
    obtain ⟨q, -, rfl⟩ := hsymbol i r x hr hx
    exact Declaration.symbolIn_mirrors _ _
  · intro before p after x hparts hx hbefore
    obtain ⟨rows₁, rows₂, rfl, rfl, hrest⟩ := List.map_eq_append_iff.1 hparts
    obtain ⟨r, rows₃, rfl, rfl, rfl⟩ := List.map_eq_cons_iff.1 hrest
    obtain ⟨q, hq, rfl⟩ := hsymbol rows₁.length r x (by simp) (by simpa using hx)
    have hfirst : (rows₁ ++ r :: rows₃).find? (fun q => q.1.1.name = r.1.1.name) = some r := by
      rw [List.find?_eq_some_iff_append]
      exact ⟨by simp, rows₁, rows₃, rfl, by simpa using hbefore⟩
    obtain rfl : q = r := Option.some.inj (hq.symm.trans hfirst)
    obtain ⟨hnamed, hholds⟩ := hrows q (by simp)
    exact ⟨Declaration.symbolIn_standsAt hholds _,
      Declaration.map_range_symbolIn hholds hnamed.length⟩
  · intro before p between p' after x hparts hx hbefore hname
    obtain ⟨rows₁, rows₂, rfl, rfl, hrest⟩ := List.map_eq_append_iff.1 hparts
    obtain ⟨r, rows₃, rfl, rfl, hmore⟩ := List.map_eq_cons_iff.1 hrest
    obtain ⟨rows₄, rows₅, rfl, rfl, hlast⟩ := List.map_eq_append_iff.1 hmore
    obtain ⟨r', rows₆, rfl, rfl, rfl⟩ := List.map_eq_cons_iff.1 hlast
    obtain ⟨q, hq, rfl⟩ := hsymbol (rows₁ ++ r :: rows₄).length r' x (by simp) (by simpa using hx)
    have hfirst : (rows₁ ++ r :: (rows₄ ++ r' :: rows₆)).find?
        (fun q => q.1.1.name = r'.1.1.name) = some r := by
      rw [List.find?_eq_some_iff_append]
      exact ⟨by simp [hname], rows₁, _, rfl, by simpa [hname] using hbefore⟩
    obtain rfl : q = r := Option.some.inj (hq.symm.trans hfirst)
    exact Declaration.symbolIn_standsAt (hrows q (by simp)).2 _

end Document

/-- The tokens of a text that holds a module are those in front of its declarations, those of its
declarations, and the end of the input; and the symbols show just these declarations. -/
theorem Document.symbols_of_parse {s : Text} {m : Module} (h : Module.parse s = .ok m) :
    ∃ (front ts : List Token) (stop : Token) (parts : List (Declaration × Site)),
      s.tokens = front ++ ts ++ [stop] ∧ m.ContentSpelledBy (front ++ ts) ∧
        Many Declaration.NamedBy parts ts ∧ parts.map Prod.fst = m.declarations ∧
          (ofText s).Shows parts := by
  obtain ⟨us, stop, htokens, hm, -⟩ := Module.exists_tokens_of_parse h
  obtain @⟨scala, purs, imports, annotations, declarations, ts₁, ts₂, ts₃, ts₄, ts₅, hscala, hpurs,
    himports, hannotations, hdeclarations⟩ := hm
  obtain ⟨parts, hparts, hnamed⟩ := hdeclarations.exists_map Prod.fst fun _ _ =>
    Declaration.SpelledBy.exists_namedBy
  obtain ⟨rows, rfl, hts, hrows⟩ := Declaration.exists_sections hnamed
  refine ⟨_, _, stop, _, htokens,
    .mk hscala hpurs himports hannotations hdeclarations, hnamed, hparts, ?_⟩
  -- the sections of the tokens are those of the declarations
  have hsections : Outline.sections s.tokens = rows.map Prod.snd := by
    rw [htokens, ← hts]
    refine Outline.sections_flatMap
      (fun t ht => (Module.kind_of_front hscala hpurs himports hannotations t ht).2) ?_ stop
    rintro _ hx
    obtain ⟨r, hr, rfl⟩ := List.mem_map.1 hx
    exact (hrows r hr).2.2
  refine Document.shows_of_sections s.ended_tokens hsections
    (fun r hr => ⟨(hrows r hr).1, (hrows r hr).2.1⟩) ?_
  have hmodule : (ofText s).module? = some _ := congrArg Except.toOption h
  rw [symbols, hmodule]
  show declarations.filterMap _ = _
  rw [← hparts, List.map_map, List.filterMap_map]
  rfl

/-- A sum, and a record that is declared again under its name. -/
theorem Document.symbols_of_repeated_name :
    let _ : Machine := .usual
    let s : Text :=
      "scala: a\npurs: b\n\ntype C : [ D | E ]\n\ntype C : \x7b\n  f: Int\n\x7d\n"
    ∃ m, Module.parse s = .ok m ∧
      ∃ (front ts : List Token) (stop : Token) (parts : List (Declaration × Site)),
        s.tokens = front ++ ts ++ [stop] ∧ m.ContentSpelledBy (front ++ ts) ∧
          Many Declaration.NamedBy parts ts ∧ parts.map Prod.fst = m.declarations ∧
            (ofText s).Shows parts := by
  intro _ s
  let ds : List Declaration :=
    [⟨"C", .sum ["D", "E"], []⟩, ⟨"C", .record [⟨"f", .primitive .int, []⟩], []⟩]
  have hwell : Module.WellFormed ⟨[], ⟨"a", "b", []⟩, [], [], ds⟩ := by
    refine ⟨by decide, by decide, by simp, by simp, fun d hd => ?_⟩
    rcases List.mem_pair.1 hd with rfl | rfl
    · exact ⟨by decide, ⟨by decide, by decide⟩, by simp⟩
    · refine ⟨by decide, fun f hf => ?_, by simp⟩
      obtain rfl := List.mem_singleton.1 hf
      exact ⟨by decide, trivial, by simp⟩
  have hnest : Module.NestedWithin Machine.nesting ⟨[], ⟨"a", "b", []⟩, [], [], ds⟩ := by decide
  obtain ⟨m, hm, -⟩ := Module.exists_parse_render hwell hnest .usual
  have htext : Module.render .usual ⟨[], ⟨"a", "b", []⟩, [], [], ds⟩ = s := by decide
  rw [htext] at hm
  exact ⟨m, hm, symbols_of_parse hm⟩

end Idl
