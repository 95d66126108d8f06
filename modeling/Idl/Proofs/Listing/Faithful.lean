/-
# Listings are faithful

Two modules have the same listing just if they are the same up to positions
(`Module.listing_faithful`).  Each node is followed along its lines: the first one tells the sort of
the node, and behind it stand the parts in a fixed order.
-/
import Idl.Proofs.Canonical.ReadBack
import Idl.Proofs.Listing.Lines
import Idl.Proofs.Text.Sequences

namespace Idl

open Listing

/-! ### What the listing of a node tells -/

lemma Primitive.spelling_injective : Function.Injective spelling := by
  intro p q h
  cases p <;> cases q <;> revert h <;> decide

lemma TypeExpr.tells_reference (depth : Int) :
    Tells [] (fun a : Option Text × Text => optionalPart depth "module" a.1 ++
      [quotedPart depth "name" a.2]) fun a => a := by
  refine ((tells_optionalPart (by decide) depth).comp Prod.fst).append
    ((tells_quotedPart depth "name").comp Prod.snd) fun a r _ => off_cons ?_ r
  rw [quotedPart, label_plain (by decide)]
  decide

/-- The first line of a type expression tells its sort. -/
lemma TypeExpr.tells_listing (depth : Int) :
    Tells [] (TypeExpr.listing depth) TypeExpr.unplaced := by
  intro t
  induction t generalizing depth with
  | primitive p =>
    rintro (q | ⟨_, q, name⟩ | t | t) r s - - heq <;>
      obtain ⟨hsort, heq⟩ := List.cons.inj heq
    · obtain ⟨hkind, hrest⟩ := List.cons.inj heq
      rw [Primitive.spelling_injective (plain_inj hkind)]
      exact ⟨rfl, hrest⟩
    all_goals exact absurd hsort (node_ne (by decide) depth)
  | reference _ q name =>
    rintro (q | ⟨_, q', name'⟩ | t | t) r s hr hs heq <;>
      obtain ⟨hsort, heq⟩ := List.cons.inj heq
    case reference =>
      have htells := ((tells_reference (depth + 2)).under
        (node (depth + 2) "TypeReference")).under (heading depth "ref")
      obtain ⟨hparts, hrest⟩ := htells (q, name) (q', name') r s hr hs heq
      obtain ⟨rfl, rfl⟩ := Prod.mk.inj hparts
      exact ⟨rfl, hrest⟩
    all_goals exact absurd hsort (node_ne (by decide) depth)
  | array t ih =>
    rintro (q | ⟨_, q', name'⟩ | t' | t') r s hr hs heq <;>
      obtain ⟨hsort, heq⟩ := List.cons.inj heq
    case array =>
      obtain ⟨hinner, hrest⟩ := ih (depth + 2) t' r s hr hs (List.cons.inj heq).2
      exact ⟨congrArg TypeExpr.array hinner, hrest⟩
    all_goals exact absurd hsort (node_ne (by decide) depth)
  | maybe t ih =>
    rintro (q | ⟨_, q', name'⟩ | t' | t') r s hr hs heq <;>
      obtain ⟨hsort, heq⟩ := List.cons.inj heq
    case maybe =>
      obtain ⟨hinner, hrest⟩ := ih (depth + 2) t' r s hr hs (List.cons.inj heq).2
      exact ⟨congrArg TypeExpr.maybe hinner, hrest⟩
    all_goals exact absurd hsort (node_ne (by decide) depth)

lemma Param.tells_listing (depth : Int) : Tells ["value"] (Param.listing depth) Param.unplaced := by
  have hlabel : IsLabel "value" := by decide
  have hvalue := (tells_optionalPart hlabel depth).comp Param.value
  refine ((hvalue.named depth "name" name).under (node depth "AnnotationParam")).imp fun p q h => ?_
  obtain ⟨hname, hvalue⟩ := Prod.mk.inj h
  rw [unplaced, unplaced, hname, hvalue]

/-- The labels of the lines that the listing of an annotation may go on with. -/
def Annotation.ends : List Text := ["AnnotationParam", "value"]

lemma Annotation.tells_listing (depth : Int) :
    Tells ends (listing depth) unplaced := by
  have hparams := (tells_children (Param.tells_listing (depth + 2)) (w := "AnnotationParam")
    (by decide) (fun p => ⟨_, _, rfl, label_node (by decide) _⟩) depth "params").comp params
  refine ((hparams.named depth "name" name).under (node depth "Annotation")).imp fun a b h => ?_
  obtain ⟨hname, hparams⟩ := Prod.mk.inj h
  rw [unplaced, unplaced, hname, hparams]

lemma Annotation.tells_listingOf (depth : Int) :
    Tells ("Annotation" :: ends) (listingOf depth) fun as => as.map unplaced :=
  tells_children (tells_listing (depth + 2)) (by decide)
    (fun a => ⟨_, _, rfl, label_node (by decide) _⟩) depth "annotations"

/-- A part with the annotations behind it. -/
lemma Annotation.tells_behind {α β : Type} {f : α → List Text} {u : α → β} {ends : List Text}
    (h : Tells ends f u) (hends : ("annotations" : Text) ∉ ends) (depth : Int)
    (annotations : α → List Annotation) :
    Tells ("Annotation" :: Annotation.ends)
      (fun a => f a ++ Annotation.listingOf depth (annotations a))
      fun a => (u a, (annotations a).map unplaced) :=
  h.append ((tells_listingOf depth).comp annotations) fun a r _ =>
    off_children (by decide) hends depth _ r

lemma Field.tells_listing (depth : Int) :
    Tells ("Annotation" :: Annotation.ends) (Field.listing depth) Field.unplaced := by
  have htype := (tells_child (TypeExpr.tells_listing (depth + 2)) depth "typ").comp Field.type
  have hparts := Annotation.tells_behind htype (by decide) depth Field.annotations
  refine ((hparts.named depth "name" name).under (node depth "RecordProp")).imp fun f g h => ?_
  obtain ⟨hname, hrest⟩ := Prod.mk.inj h
  obtain ⟨htype, hnotes⟩ := Prod.mk.inj hrest
  rw [unplaced, unplaced, hname, htype, hnotes]

/-- The labels of the lines that the listing of a body may go on with. -/
def Body.ends : List Text := ["str", "RecordProp", "Annotation", "AnnotationParam", "value"]

/-- The first line of a body tells its sort. -/
lemma Body.tells_listing (depth : Int) : Tells ends (Body.listing depth) Body.unplaced := by
  have htype := (tells_child (TypeExpr.tells_listing (depth + 2)) depth "typ").mono
    (List.nil_subset ends)
  have hfields : Tells ends _ _ := (tells_children (Field.tells_listing (depth + 2))
    (w := "RecordProp") (by decide) (fun f => ⟨_, _, rfl, label_node (by decide) _⟩) depth
    "props").mono (by decide)
  have hvariants : Tells ends _ _ := (tells_members depth "variants").mono (by decide)
  intro b
  cases b with
  | «alias» t =>
    rintro (t' | t' | fs' | vs') r s hr hs heq <;> obtain ⟨hsort, heq⟩ := List.cons.inj heq
    case «alias» =>
      obtain ⟨ht, hrest⟩ := htype t t' r s hr hs heq
      exact ⟨congrArg Body.alias ht, hrest⟩
    all_goals exact absurd hsort (node_ne (by decide) depth)
  | wrap t =>
    rintro (t' | t' | fs' | vs') r s hr hs heq <;> obtain ⟨hsort, heq⟩ := List.cons.inj heq
    case wrap =>
      obtain ⟨ht, hrest⟩ := htype t t' r s hr hs heq
      exact ⟨congrArg Body.wrap ht, hrest⟩
    all_goals exact absurd hsort (node_ne (by decide) depth)
  | record fs =>
    rintro (t' | t' | fs' | vs') r s hr hs heq <;> obtain ⟨hsort, heq⟩ := List.cons.inj heq
    case record =>
      obtain ⟨hfs, hrest⟩ := hfields fs fs' r s hr hs heq
      exact ⟨congrArg Body.record hfs, hrest⟩
    all_goals exact absurd hsort (node_ne (by decide) depth)
  | sum vs =>
    rintro (t' | t' | fs' | vs') r s hr hs heq <;> obtain ⟨hsort, heq⟩ := List.cons.inj heq
    case sum =>
      obtain ⟨hvs, hrest⟩ := hvariants vs vs' r s hr hs heq
      exact ⟨congrArg Body.sum hvs, hrest⟩
    all_goals exact absurd hsort (node_ne (by decide) depth)

lemma Declaration.tells_listing (depth : Int) :
    Tells ("Annotation" :: Annotation.ends) (Declaration.listing depth) Declaration.unplaced := by
  have hbody := (tells_child (Body.tells_listing (depth + 2)) depth "body").comp Declaration.body
  have hparts := Annotation.tells_behind hbody (by decide) depth Declaration.annotations
  refine ((hparts.named depth "name" name).under (node depth "TypeDecl")).imp fun c d h => ?_
  obtain ⟨hname, hrest⟩ := Prod.mk.inj h
  obtain ⟨hbody, hnotes⟩ := Prod.mk.inj hrest
  rw [unplaced, unplaced, hname, hbody, hnotes]

lemma Exports.tells_listing (depth : Int) : Tells [] (Exports.listing depth) id := by
  have hpath := (tells_quotedPart depth "template_path").comp templatePath
  have hparts := ((hpath.named depth "purs" purs).named depth "scala" scala).under
    (node depth "Exports")
  refine hparts.imp fun e e' h => ?_
  obtain ⟨hscala, hrest⟩ := Prod.mk.inj h
  obtain ⟨hpurs, hpath⟩ := Prod.mk.inj hrest
  show e = e'
  cases e
  cases e'
  simp_all only

lemma Module.tells_listing (depth : Int) : Tells ("Annotation" :: Annotation.ends)
    (listing depth) unplaced := by
  have hexports := (tells_child (Exports.tells_listing (depth + 2)) depth "exports").comp exports
  have himports := (tells_members depth "imports").comp imports
  have hdeclarations := (tells_children (Declaration.tells_listing (depth + 2)) (w := "TypeDecl")
    (by decide) (fun d => ⟨_, _, rfl, label_node (by decide) _⟩) depth "type_decls").comp
    declarations
  have hparts := Annotation.tells_behind ((hexports.append himports
    fun m r _ => off_children (by decide) (by decide) depth _ r).append hdeclarations
    fun m r _ => off_children (by decide) (by decide) depth _ r) (by decide) depth annotations
  refine ((hparts.named depth "name" name).under (node depth "Module")).imp fun m m' h => ?_
  simp only [Prod.mk.injEq] at h
  obtain ⟨hname, ⟨⟨hexports, himports⟩, hdeclarations⟩, hnotes⟩ := h
  rw [unplaced, unplaced]
  cases m
  cases m'
  simp_all only [id_eq]

/-! ### What stands in the listing of a node -/

lemma TypeExpr.shown_listing (depth : Int) (t : TypeExpr) : Shown (t.listing depth) := by
  induction t generalizing depth with
  | primitive p =>
    have hspelling : ∀ c ∈ p.spelling, c.isPrintable := by cases p <;> decide
    exact (shown_nil.cons (isPrintable_plain (by decide) hspelling)).node (by decide)
  | reference _ q name =>
    exact ((((shown_optionalPart (by decide) q).append
      (shown_nil.quotedPart (by decide) name)).node (by decide)).child (by decide)).node (by decide)
  | array t ih | maybe t ih => exact ((ih (depth + 2)).child (by decide)).node (by decide)

lemma Param.shown_listing (depth : Int) (p : Param) : Shown (p.listing depth) :=
  ((shown_optionalPart (by decide) p.value).quotedPart (by decide) p.name).node (by decide)

lemma Annotation.shown_listing (depth : Int) (a : Annotation) : Shown (a.listing depth) :=
  ((shown_nodes (by decide) (Param.shown_listing _) a.params).quotedPart (by decide) a.name).node
    (by decide)

lemma Annotation.shown_listingOf (depth : Int) (as : List Annotation) :
    Shown (listingOf depth as) :=
  shown_nodes (by decide) (shown_listing _) as

lemma Field.shown_listing (depth : Int) (f : Field) : Shown (f.listing depth) := by
  have hnotes := Annotation.shown_listingOf depth f.annotations
  have htype := f.type.shown_listing (depth + 2)
  exact (((htype.child (by decide)).append hnotes).quotedPart (by decide) f.name).node (by decide)

lemma Body.shown_listing (depth : Int) (b : Body) : Shown (b.listing depth) := by
  cases b with
  | «alias» t | wrap t => exact ((t.shown_listing (depth + 2)).child (by decide)).node (by decide)
  | record fs => exact (shown_nodes (by decide) (Field.shown_listing _) fs).node (by decide)
  | sum vs => exact (shown_members (by decide) vs).node (by decide)

lemma Declaration.shown_listing (depth : Int) (d : Declaration) : Shown (d.listing depth) := by
  have hnotes := Annotation.shown_listingOf depth d.annotations
  have hbody := d.body.shown_listing (depth + 2)
  exact (((hbody.child (by decide)).append hnotes).quotedPart (by decide) d.name).node (by decide)

lemma Exports.shown_listing (depth : Int) (e : Exports) : Shown (e.listing depth) :=
  (((shown_nil.quotedPart (by decide) e.templatePath).quotedPart (by decide) e.purs).quotedPart
    (by decide) e.scala).node (by decide)

lemma Module.shown_listing (depth : Int) (m : Module) : Shown (m.listing depth) := by
  have hnotes := Annotation.shown_listingOf depth m.annotations
  have hexports := m.exports.shown_listing (depth + 2)
  exact (((((hexports.child (by decide)).append (shown_members (by decide) m.imports)).append
    (shown_nodes (by decide) (Declaration.shown_listing _) m.declarations)).append
    hnotes).quotedPart (by decide) m.name).node (by decide)

/-! ### The text of a listing -/

/-- Lines without a break in them are told by their text. -/
lemma Listing.eq_of_text_eq {ls ls' : List Text} (h : Shown ls) (h' : Shown ls')
    (heq : (ls.flatMap fun line => line ++ ("\n" : Text)) =
      ls'.flatMap fun line => line ++ ("\n" : Text)) : ls = ls' := by
  have hcons (line : Text) (ls : List Text) :
      ((line :: ls).flatMap fun line => line ++ ("\n" : Text)) =
        line ++ CodePoint.scalar '\n' :: ls.flatMap fun line => line ++ ("\n" : Text) := by
    rw [List.flatMap_cons, List.append_assoc]
    rfl
  -- the first line goes up to the first break
  have hfirst {line : Text} {ls : List Text} (h : Shown (line :: ls)) (r : Text) :
      (line ++ CodePoint.scalar '\n' :: r).takeWhile (· ≠ .scalar '\n') = line := by
    have hline : ∀ c ∈ line, decide (c ≠ .scalar '\n') = true := by
      intro c hc
      refine decide_eq_true fun hbreak => ?_
      exact absurd (h line List.mem_cons_self c hc) (by rw [hbreak]; decide)
    rw [List.takeWhile_append_of_pos hline, List.takeWhile_cons_of_neg (by simp), List.append_nil]
  induction ls generalizing ls' with
  | nil =>
    cases ls' with
    | nil => rfl
    | cons line' ls' =>
      rw [hcons] at heq
      exact absurd heq.symm (by simp)
  | cons line ls ih =>
    cases ls' with
    | nil =>
      rw [hcons] at heq
      exact absurd heq (by simp)
    | cons line' ls' =>
      rw [hcons, hcons] at heq
      have hline := congrArg (List.takeWhile (· ≠ .scalar '\n')) heq
      rw [hfirst h, hfirst h'] at hline
      subst hline
      have hrest := (List.cons.inj (List.append_cancel_left heq)).2
      rw [ih (List.forall_mem_cons.1 h).2 (List.forall_mem_cons.1 h').2 hrest]

lemma TypeExpr.listing_unplaced (depth : Int) (t : TypeExpr) :
    t.unplaced.listing depth = t.listing depth := by
  induction t generalizing depth with
  | primitive | reference => rfl
  | array t ih | maybe t ih => simp only [unplaced, listing, ih]

lemma Annotation.listing_unplaced (depth : Int) (a : Annotation) :
    a.unplaced.listing depth = a.listing depth := by
  rw [listing, listing, unplaced, List.map_map]
  rfl

lemma Annotation.listingOf_unplaced (depth : Int) (as : List Annotation) :
    listingOf depth (as.map unplaced) = listingOf depth as := by
  simp only [listingOf, List.map_map, Function.comp_def, listing_unplaced]

lemma Field.listing_unplaced (depth : Int) (f : Field) :
    f.unplaced.listing depth = f.listing depth := by
  simp only [listing, unplaced, TypeExpr.listing_unplaced, Annotation.listingOf_unplaced]

lemma Body.listing_unplaced (depth : Int) (b : Body) :
    b.unplaced.listing depth = b.listing depth := by
  cases b with
  | «alias» t | wrap t => simp only [listing, unplaced, TypeExpr.listing_unplaced]
  | record fs =>
    simp only [listing, unplaced, List.map_map, Function.comp_def, Field.listing_unplaced]
  | sum vs => rfl

lemma Declaration.listing_unplaced (depth : Int) (d : Declaration) :
    d.unplaced.listing depth = d.listing depth := by
  simp only [listing, unplaced, Body.listing_unplaced, Annotation.listingOf_unplaced]

/-- A listing tells no positions. -/
lemma Module.listing_unplaced (depth : Int) (m : Module) :
    m.unplaced.listing depth = m.listing depth := by
  simp only [listing, unplaced, List.map_map, Function.comp_def, Declaration.listing_unplaced,
    Annotation.listingOf_unplaced]

end Idl
