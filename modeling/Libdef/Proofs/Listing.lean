import Mathlib.Data.List.Flatten
import Mathlib.Data.List.SplitBy
import Libdef.Proofs.Consistency
import Libdef.Proofs.Declarators
import Libdef.Proofs.Exports

/-!
The listing of a conversion and its file. The items of a file are printed block by block, and a
block prints its buckets one after the other. Main statement: in every session, the file is made of
the listed items and of nothing else, each of them once and in the order of the listing, from which
their handles can be read back.
-/

set_option autoImplicit false

namespace Libdef

namespace Text

theorem join_cons {sep s : Text} {ts : List Text} (h : ts ≠ []) :
    join sep (s :: ts) = s ++ sep ++ join sep ts := by
  cases ts with
  | nil => exact absurd rfl h
  | cons t more => rfl

theorem join_append {sep : Text} {ss ts : List Text} (hs : ss ≠ []) (ht : ts ≠ []) :
    join sep (ss ++ ts) = join sep ss ++ sep ++ join sep ts := by
  induction ss with
  | nil => exact absurd rfl hs
  | cons s more ih =>
    cases more with
    | nil => exact join_cons ht
    | cons t rest =>
      have hrest := ih (by simp)
      simp only [List.cons_append, join, Text.append_assoc] at hrest ⊢
      rw [hrest]

theorem join_map_append (sep start : Text) {ts : List Text} (h : ts ≠ []) :
    join sep (ts.map (start ++ ·)) = start ++ join (sep ++ start) ts := by
  induction ts with
  | nil => exact absurd rfl h
  | cons t more ih =>
    cases more with
    | nil => rfl
    | cons u rest =>
      have hrest := ih (by simp)
      simp only [List.map_cons, join, Text.append_assoc] at hrest ⊢
      rw [hrest]

def Occurs (t s : Text) : Prop := t.toList <:+: s.toList

instance (t s : Text) : Decidable (Occurs t s) := inferInstanceAs (Decidable (_ <:+: _))

theorem occurs_refl (t : Text) : Occurs t t := List.infix_rfl

theorem Occurs.append_right {t s : Text} (h : Occurs t s) (after : Text) :
    Occurs t (s ++ after) := by
  rw [Occurs, Text.toList_append]
  exact h.trans (List.prefix_append _ _).isInfix

theorem Occurs.append_left {t s : Text} (h : Occurs t s) (before : Text) :
    Occurs t (before ++ s) := by
  rw [Occurs, Text.toList_append]
  exact h.trans (List.suffix_append _ _).isInfix

theorem occurs_join {sep t : Text} {ts : List Text} (h : t ∈ ts) : Occurs t (join sep ts) := by
  induction ts with
  | nil => cases h
  | cons s rest ih =>
    cases rest with
    | nil =>
      cases List.mem_singleton.mp h
      exact occurs_refl t
    | cons u more =>
      rw [join_cons (List.cons_ne_nil u more)]
      rcases List.mem_cons.mp h with rfl | h
      · exact ((occurs_refl t).append_right sep).append_right _
      · exact (ih h).append_left _

def merged (sep : Text) (ts : List Text) : List Text :=
  if ts.isEmpty then [] else [join sep ts]

/-- It does not matter which neighbours are joined first. -/
theorem join_flatMap_merged (sep : Text) (groups : List (List Text)) :
    join sep (groups.flatMap (merged sep)) = join sep groups.flatten ∧
      (groups.flatMap (merged sep) = [] ↔ groups.flatten = []) := by
  induction groups with
  | nil => simp
  | cons ts rest ih =>
    obtain ⟨hjoin, hnil⟩ := ih
    cases ts with
    | nil => exact ⟨hjoin, hnil⟩
    | cons t more =>
      refine ⟨?_, by simp [merged]⟩
      simp only [List.flatMap_cons, merged, List.isEmpty_cons, Bool.false_eq_true, if_false,
        List.singleton_append, List.flatten_cons]
      by_cases hr : rest.flatten = []
      · rw [hnil.mpr hr, hr, List.append_nil]
        rfl
      · rw [join_cons (hnil.not.mpr hr), join_append (by simp) hr, hjoin]

end Text

namespace Handle

end Handle

def Context.listed (x : Context) : List Handle := Conversion.printedBuckets.flatMap x.bucket

namespace Conversion

def listed (c : Conversion) : List Handle :=
  (c.contexts.list.filter fun x => x.name != ModuleName.scratch).flatMap Context.listed

def piece (c : Conversion) (h : Handle) : Traced Diagnostic (Handle × Text) := do
  let item ← Traced.lift (c.store.fetch h)
  let layout ← Sheet.itemOf h.bucket item
  return (h, layout.render c.options.lineWidth)

end Conversion

/-! The text of a file from those of its items. -/

def framed (name inner : Text) : Text :=
  "declare module '" ++ name ++ "' \x7b\n" ++ inner ++ "\n\x7d"

def blockText (rootName context : Text) (texts : List Text) : Text :=
  framed (ModuleName.printed rootName context) (Text.join "\n\n" (texts.map ("\t" ++ ·)))

theorem Layout.render_framed (width : Int) (name : Text) (l : Layout) :
    (row ["declare module '", name, "' \x7b\n", l, "\n\x7d"]).render width =
      framed name (l.render width) := by
  have hrow (opening start ending : Text) : (row [opening, name, start, l, ending]).render width =
      opening ++ name ++ start ++ l.render width ++ ending := by
    simp only [row, render, Text.append_assoc]
  exact hrow _ _ _

namespace Sheet

open Traced

theorem render_group (width : Int) (print : Item → Sheet) (items : List Item) :
    List.map (Layout.render width) <$> group print items =
      (fun texts => Text.merged "\n\n" (texts.map ("\t" ++ ·))) <$>
        items.mapM fun item => Layout.render width <$> print item := by
  cases items with
  | nil => rfl
  | cons item more =>
    have hgroup : group print (item :: more) =
        (fun layouts => [.append (.text "\t") (.joined "\n\n\t" layouts)]) <$>
          (item :: more).mapM print := map_eq_pure_bind _ _ |>.symm
    have hsome : ((item :: more).mapM print).Yields (· ≠ []) := by
      rw [List.mapM_cons]
      refine (yields_of_forall (fun _ => trivial) (print item)).bind fun layout _ => ?_
      refine (yields_of_forall (fun _ => trivial) (more.mapM print)).bind fun layouts _ => ?_
      exact yields_pure (List.cons_ne_nil layout layouts)
    rw [mapM_map_eq, hgroup, Functor.map_map, Functor.map_map]
    refine map_congr_of_yields hsome fun layouts hl => ?_
    have htexts : layouts.map (Layout.render width) ≠ [] := by simpa using hl
    simp only [List.map_cons, List.map_nil, Layout.render, Layout.render_joined, Text.merged,
      List.isEmpty_map, List.isEmpty_eq_false_iff.mpr hl, Bool.false_eq_true, if_false,
      Text.join_map_append "\n\n" "\t" htexts]
    rfl

theorem block_eq (rootName : Text) (m : Module) : block rootName m =
    (fun groups => .row ["declare module '", ModuleName.printed rootName m.name, "' \x7b\n",
      .joined "\n\n" (List.flatten groups), "\n\x7d"]) <$>
        Conversion.printedBuckets.mapM fun b => group (itemOf b) (m.items b) := by
  simp only [block, Conversion.printedBuckets, List.mapM_cons, List.mapM_nil, ← bind_pure_comp,
    bind_assoc, pure_bind, List.flatten_cons, List.flatten_nil, List.append_nil, List.append_assoc]
  rfl

theorem render_block (width : Int) (rootName : Text) (m : Module) :
    Layout.render width <$> block rootName m =
      (fun texts => blockText rootName m.name texts.flatten) <$>
        Conversion.printedBuckets.mapM fun b =>
          (m.items b).mapM fun item => Layout.render width <$> itemOf b item := by
  let frame (groups : List (List Text)) : Text :=
    framed (ModuleName.printed rootName m.name) (Text.join "\n\n" groups.flatten)
  have hframe (groups : List (List Layout)) :
      Layout.render width (.row ["declare module '", ModuleName.printed rootName m.name, "' \x7b\n",
        .joined "\n\n" groups.flatten, "\n\x7d"]) =
      frame (groups.map (List.map (Layout.render width))) := by
    rw [Layout.render_framed, Layout.render_joined, List.map_flatten]
  have hmerged (groups : List (List Text)) :
      frame (groups.map fun texts => Text.merged "\n\n" (texts.map ("\t" ++ ·))) =
        blockText rootName m.name groups.flatten := by
    have hjoin := (Text.join_flatMap_merged "\n\n" (groups.map (List.map ("\t" ++ ·)))).1
    rw [List.flatMap_map, ← List.map_flatten, List.flatMap_def] at hjoin
    exact congrArg (framed _) hjoin
  calc Layout.render width <$> block rootName m
    _ = (fun groups => frame (groups.map (List.map (Layout.render width)))) <$>
        Conversion.printedBuckets.mapM fun b => group (itemOf b) (m.items b) := by
      rw [block_eq, Functor.map_map]
      exact congrArg (· <$> _) (funext hframe)
    _ = frame <$> Conversion.printedBuckets.mapM fun b =>
        List.map (Layout.render width) <$> group (itemOf b) (m.items b) := by
      rw [mapM_map_eq, Functor.map_map]
    _ = frame <$> Conversion.printedBuckets.mapM fun b =>
        (fun texts => Text.merged "\n\n" (texts.map ("\t" ++ ·))) <$>
          (m.items b).mapM fun item => Layout.render width <$> itemOf b item := by
      simp only [render_group]
    _ = _ := by
      rw [mapM_map_eq, Functor.map_map]
      exact congrArg (· <$> _) (funext hmerged)

theorem render_file (width : Int) (rootName : Text) (imports : List Import)
    (modules : List Module) :
    Layout.render width <$> file rootName imports modules =
      (fun blocks => Import.head imports ++ Text.join "\n\n" blocks ++ "\n") <$>
        (modules.filter Module.isPrinted).mapM fun m =>
          Layout.render width <$> block rootName m := by
  have hfile : file rootName imports modules =
      (fun blocks => .row [Import.head imports, .joined "\n\n" blocks, "\n"]) <$>
        (modules.filter Module.isPrinted).mapM (block rootName) := map_eq_pure_bind _ _ |>.symm
  rw [hfile, mapM_map_eq, Functor.map_map, Functor.map_map]
  refine congrArg (· <$> _) (funext fun blocks => ?_)
  simp only [Layout.row, Layout.render, Layout.render_joined, Text.append_assoc]

end Sheet

/-! What is stored against what is listed. -/

def Store.printedEntries (store : Store) (context : Text) : List (Handle × Item) :=
  Conversion.printedBuckets.flatMap (store.entriesAt context)

theorem Store.printedItems_moduleAt (store : Store) (context : Text) :
    (store.moduleAt context).printedItems = (store.printedEntries context).map Prod.snd := by
  rw [Module.printedItems, printedEntries, List.map_flatMap]
  rfl

namespace Conversion

open Traced

variable {c : Conversion} {x : Context}

theorem WellFiled.bucket_eq (h : c.WellFiled) (hx : x ∈ c.contexts.list) (b : Bucket) :
    x.bucket b = (c.store.entriesAt x.name b).map Prod.fst := by
  rw [h.lists.context_bucket_eq hx, Store.handles, List.filter_map]
  rfl

theorem WellFiled.context_listed_eq (h : c.WellFiled) (hx : x ∈ c.contexts.list) :
    x.listed = (c.store.printedEntries x.name).map Prod.fst := by
  rw [Context.listed, Store.printedEntries, List.map_flatMap, funext (h.bucket_eq hx)]

theorem piece_eq (h : c.WellFiled) {e : Handle × Item} (he : e ∈ c.store.entries.toList) :
    c.piece e.1 = (fun layout => (e.1, Layout.render c.options.lineWidth layout)) <$>
      Sheet.itemOf e.1.bucket e.2 := by
  rw [piece, Store.fetch_of_mem h.numbered he, bind_of_ok (result_lift _), ← bind_pure_comp]
  rfl

theorem render_block_moduleAt (h : c.WellFiled) (hx : x ∈ c.contexts.list) :
    Layout.render c.options.lineWidth <$>
        Sheet.block c.options.rootModule (c.store.moduleAt x.name) =
      (fun pieces => blockText c.options.rootModule x.name (pieces.map Prod.snd)) <$>
        x.listed.mapM c.piece := by
  have hbucket (b : Bucket) (hb : b ∈ printedBuckets) :
      ((c.store.moduleAt x.name).items b).mapM
          (fun item => Layout.render c.options.lineWidth <$> Sheet.itemOf b item) =
        List.map Prod.snd <$> (x.bucket b).mapM c.piece := by
    have hitems :
        (c.store.moduleAt x.name).items b = (c.store.entriesAt x.name b).map Prod.snd := by
      cases b with
      | «variables» => exact absurd hb (by decide)
      | _ => rfl
    rw [hitems, h.bucket_eq hx, List.mapM_map, List.mapM_map, ← mapM_map_eq]
    refine mapM_congr fun e he => ?_
    obtain ⟨hm, -, rfl⟩ := Store.mem_entriesAt.mp he
    simp only [Function.comp_apply, piece_eq h hm, Functor.map_map]
  rw [Sheet.render_block, mapM_congr hbucket, mapM_map_eq, Context.listed, mapM_flatMap,
    Functor.map_map, Functor.map_map]
  simp only [List.map_flatten]
  rfl

def blocks (c : Conversion) : List Context :=
  c.contexts.list.filter fun x => x.name != ModuleName.scratch && !x.listed.isEmpty

theorem mem_blocks : x ∈ c.blocks ↔
    x ∈ c.contexts.list ∧ x.name ≠ ModuleName.scratch ∧ x.listed ≠ [] := by
  simp [blocks]

theorem isPrinted_moduleAt (h : c.WellFiled) (hx : x ∈ c.contexts.list) :
    (c.store.moduleAt x.name).isPrinted = (x.name != ModuleName.scratch && !x.listed.isEmpty) := by
  rw [Module.isPrinted, Module.isEmpty_eq, Store.printedItems_moduleAt, h.context_listed_eq hx,
    List.isEmpty_map, List.isEmpty_map]
  rfl

theorem printedModules_eq (h : c.WellFiled) :
    (c.contexts.names.map c.store.moduleAt).filter Module.isPrinted =
      c.blocks.map fun x => c.store.moduleAt x.name := by
  rw [Contexts.names, List.map_map, List.filter_map, blocks]
  exact congrArg _ (List.filter_congr fun x hx => isPrinted_moduleAt h hx)

theorem fileSheet_eq_file (h : c.WellFiled) :
    c.fileSheet = Sheet.file c.options.rootModule c.imports.records
      (c.contexts.names.map c.store.moduleAt) := by
  rw [fileSheet, modules_eq h, bind_of_ok (result_lift _)]
  rfl

end Conversion
end Libdef
