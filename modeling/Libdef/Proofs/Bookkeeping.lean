import Mathlib.Data.List.Forall2
import Libdef.Proofs.Content
import Libdef.Proofs.Declarators
import Libdef.Proofs.Stripping

/-!
Conversions do not look at bookkeeping. Main statement: trees that are the same once they are
stripped of it, whatever their positions, parents and flags are, convert to the same text with the
same reports, namespaces, contexts, imports and listing, or fail for the same cause.
-/

set_option autoImplicit false

namespace Libdef

def Fault.withoutKind : Fault → Fault
  | .unnamed _ => .unnamed none
  | .noStatements _ => .noStatements none
  | e => e

def Item.stripped : Item → Item
  | .declaration node => .declaration node.stripped
  | item => item

def Entry.stripped : Entry → Entry
  | .item i context bucket => .item i.stripped context bucket
  | entry => entry

/-- The second files what the first does, but stripped, and ends alike. -/
structure Filing.Strips (f g : Filing) : Prop where
  log : g.log = f.log.map Entry.stripped
  result : Alike (fun _ _ => True) (fun e e' => e.withoutKind = e'.withoutKind) f.result g.result

namespace Filing.Strips

theorem tell (entry : Entry) : Strips (Traced.tell entry) (Traced.tell entry.stripped) :=
  ⟨rfl, trivial⟩

theorem fail {e e' : Fault} (h : e.withoutKind = e'.withoutKind) :
    Strips (Traced.fail e) (Traced.fail e') :=
  ⟨rfl, h⟩

theorem lift_bind {α β : Type} {R : α → β → Prop} {r : Except Fault α} {r' : Except Fault β}
    {k : α → Filing} {k' : β → Filing}
    (hr : Alike R (fun e e' => e.withoutKind = e'.withoutKind) r r')
    (h : ∀ a b, R a b → Strips (k a) (k' b)) :
    Strips (Traced.lift r >>= k) (Traced.lift r' >>= k') := by
  obtain ⟨a, b, rfl, rfl, hab⟩ | ⟨e, e', rfl, rfl, he⟩ := hr.ok_or_error
  · rw [Traced.bind_of_ok rfl, Traced.bind_of_ok rfl]
    exact h a b hab
  · rw [Traced.bind_of_error rfl, Traced.bind_of_error rfl]
    exact ⟨rfl, he⟩

theorem lift_bind_same {α : Type} (r : Except Fault α) {k k' : α → Filing}
    (h : ∀ a, Strips (k a) (k' a)) : Strips (Traced.lift r >>= k) (Traced.lift r >>= k') := by
  refine lift_bind (R := Eq) ?_ fun a b hab => hab ▸ h a
  cases r <;> exact rfl

theorem andThen {f g k k' : Filing} (h : Strips f g) (hk : Strips k k') :
    Strips (f >>= fun _ => k) (g >>= fun _ => k') := by
  obtain ⟨_, _, hf, hg, -⟩ | ⟨e, e', hf, hg, he⟩ := h.result.ok_or_error
  · rw [Traced.bind_of_ok hf, Traced.bind_of_ok hg]
    exact ⟨by simp [h.log, hk.log], hk.result⟩
  · rw [Traced.bind_of_error hf, Traced.bind_of_error hg]
    exact ⟨h.log, he⟩

end Filing.Strips

namespace Filing

open Json

variable (j : Json) (context : Text)

theorem declarationOfJson_strips :
    Alike (fun n m => m = n.stripped) (fun e e' => e.withoutKind = e'.withoutKind)
      (Node.declarationOfJson j) (Node.declarationOfJson j.stripped) := by
  simp only [Node.declarationOfJson, Node.ofJson_stripped]
  cases Node.ofJson j with
  | error e => exact rfl
  | ok node =>
    cases node with
    | none => exact rfl
    | some node =>
      show Alike _ _ (if node.name.getD "" = "" then _ else _)
        (if node.stripped.name.getD "" = "" then _ else _)
      rw [node.name_stripped]
      split <;> exact rfl

theorem declaration_strips (bucket : Bucket) :
    Strips (declaration j bucket context) (declaration j.stripped bucket context) := by
  refine .lift_bind (declarationOfJson_strips j) fun n m hm => ?_
  subst hm
  exact .tell (.item (.declaration n) context bucket)

theorem variableDeclaration_strips :
    Strips (variableDeclaration context j) (variableDeclaration context j.stripped) := by
  have htype : Alike (fun t t' => t' = t.stripped) (fun e e' => e.withoutKind = e'.withoutKind)
      (j.get "type").referencedName (j.get "type").stripped.referencedName := by
    rw [referencedName_stripped]
    cases (j.get "type").referencedName <;> exact rfl
  simp (disch := decide) only [variableDeclaration, isObj_stripped, get_stripped,
    nameText_stripped]
  split
  · exact .fail rfl
  · refine .lift_bind_same _ fun name => .lift_bind htype fun t t' ht => ?_
    subst ht
    rw [nameParts_stripped]
    refine .lift_bind_same _ fun parts => ?_
    split
    · split
      · exact .tell (.report _)
      · exact .tell (.item (.variable _) _ _)
    · exact .tell (.report _)

theorem exportAssignment_strips :
    Strips (exportAssignment j context) (exportAssignment j.stripped context) := by
  simp (disch := decide) only [exportAssignment, get_stripped, nameText_stripped]
  refine .lift_bind_same _ fun name => ?_
  split
  · exact .tell (.report _)
  · exact .tell (.item (.export _) _ _)

theorem otherStatement_strips (hkind : (j.get "kind").isContainer = false) :
    Strips (otherStatement j context) (otherStatement j.stripped context) := by
  simp (disch := decide) only [otherStatement, get_stripped, nameText_stripped,
    stripped_of_not_isContainer hkind]
  exact .lift_bind_same _ fun name => .tell (.report _)

theorem isNamespace_stripped (flags : Json) : isNamespace flags.stripped = isNamespace flags := by
  have htruthy := flags.truthy_stripped
  cases flags with
  | arr _ | obj _ =>
    simp only [stripped] at htruthy
    simp only [isNamespace, stripped, htruthy]
  | _ => rfl

end Filing

def Site.Strips (site other : Site) : Prop := site.filing.Strips other.filing

theorem Filing.Strips.sites {sites others : List Site}
    (h : List.Forall₂ Site.Strips sites others) :
    Strips (sites.forM Site.filing) (others.forM Site.filing) := by
  induction h with
  | nil => exact ⟨rfl, trivial⟩
  | cons h _ ih => exact h.andThen ih

theorem Site.strips_flatMap {l : List Json} {f g : Json → List Site}
    (h : ∀ j ∈ l, List.Forall₂ Strips (f j) (g j)) :
    List.Forall₂ Strips (l.flatMap f) (l.flatMap g) := by
  induction l with
  | nil => exact .nil
  | cons j l ih => exact List.rel_append (h j (by simp)) (ih fun i hi => h i (by simp [hi]))

/-- The sites of the second tour file what those of the first do, but stripped; as a module only if
it is one. -/
structure Tour.Strips (isModule : Prop) (s t : Tour) : Prop where
  statement : ∀ context, List.Forall₂ Site.Strips (s.statement context) (t.statement context)
  block : ∀ context, List.Forall₂ Site.Strips (s.block context) (t.block context)
  statements : ∀ context, List.Forall₂ Site.Strips (s.statements context) (t.statements context)
  module : isModule → ∀ context qualifier,
    List.Forall₂ Site.Strips (s.module context qualifier) (t.module context qualifier)

namespace Tour

open Json List

theorem strips_malformed (fault : Fault) :
    Forall₂ Site.Strips [.malformed fault] [.malformed fault] :=
  .cons (.fail rfl) .nil

theorem failing_strips (isModule : Prop) (fault : Fault) :
    Strips isModule (failing fault) (failing fault) :=
  ⟨fun _ => strips_malformed _, fun _ => strips_malformed _, fun _ => strips_malformed _,
    fun _ _ _ => strips_malformed _⟩

theorem declarators_strips (context : Text) (list : Json) :
    Forall₂ Site.Strips (declarators context list) (declarators context list.stripped) := by
  cases list with
  | arr items =>
    simp only [stripped, strippedItems_eq, declarators, forall₂_map_left_iff,
      forall₂_map_right_iff, forall₂_same]
    exact fun j _ => Filing.variableDeclaration_strips j context
  | obj fields =>
    simp only [stripped, declarators, isEmpty_strippedFields]
    split
    · exact .nil
    · exact strips_malformed _
  | null => exact .nil
  | str _ =>
    simp only [stripped, declarators]
    split
    · exact .nil
    · exact strips_malformed _
  | bool _ | int _ | real _ =>
    simp only [stripped, declarators]
    split
    · exact strips_malformed _
    · exact .nil

variable (j : Json) {s t : Tour}

theorem variableStatement_strips (context : Text) :
    Forall₂ Site.Strips (variableStatement j context) (variableStatement j.stripped context) := by
  simp (disch := decide) only [variableStatement, get_stripped, truthy_stripped, isObj_stripped]
  split
  · split
    · exact declarators_strips _ _
    · exact strips_malformed _
  · exact .nil

theorem strips_opened (name : Text) {sites others : List Site}
    (h : Forall₂ Site.Strips sites others) :
    Forall₂ Site.Strips (.knownContext name :: sites) (.knownContext name :: others) :=
  .cons (.tell (.knownContext name)) h

theorem namespaceOf_strips (inner : Json)
    (h : Strips ((inner.get "kind").isStr "ModuleDeclaration" = true) s t) (context name : Text) :
    Forall₂ Site.Strips (namespaceOf inner s context name)
      (namespaceOf inner.stripped t context name) := by
  simp (disch := decide) only [namespaceOf, isNull_stripped, isObj_stripped, get_stripped,
    isStr_stripped]
  split
  · exact .cons (.tell (.knownNamespace _)) (strips_opened _ .nil)
  split
  · exact strips_malformed _
  split
  · exact h.module ‹_› _ _
  · exact .cons (.tell (.knownNamespace _)) (strips_opened _ (h.block _))

theorem plainModuleOf_strips (inner : Json)
    (h : Strips ((inner.get "kind").isStr "ModuleDeclaration" = true) s t) (name : Text) :
    Forall₂ Site.Strips (plainModuleOf inner s name) (plainModuleOf inner.stripped t name) := by
  simp (disch := decide) only [plainModuleOf, isNull_stripped, isObj_stripped, get_stripped,
    isStr_stripped]
  refine strips_opened _ ?_
  split
  · exact .nil
  split
  · exact strips_malformed _
  split
  · exact h.statement _
  · exact h.block _

theorem moduleOf_strips
    (h : Strips (((j.get "body").get "kind").isStr "ModuleDeclaration" = true) s t)
    (hmodule : (j.get "kind").isStr "ModuleDeclaration" = true) (context : Text)
    (qualifier : Option Text) :
    Forall₂ Site.Strips (moduleOf j s context qualifier)
      (moduleOf j.stripped t context qualifier) := by
  simp (disch := decide) only [moduleOf, get_stripped, nameText_stripped,
    flags_stripped hmodule, Filing.isNamespace_stripped]
  split
  · exact strips_malformed _
  split
  · exact .cons (.tell (.report _)) .nil
  split
  · exact strips_malformed _
  · exact namespaceOf_strips _ h _ _
  · exact plainModuleOf_strips _ h _

theorem statementOf_strips {m m' : Option Text → List Site}
    (h : (j.get "kind").isStr "ModuleDeclaration" = true →
      Forall₂ Site.Strips (m none) (m' none)) (context : Text) :
    Forall₂ Site.Strips (statementOf j m context) (statementOf j.stripped m' context) := by
  have hbucket : Filing.declarationBucket? (j.get "kind").stripped =
      Filing.declarationBucket? (j.get "kind") := by
    cases j.get "kind" <;> rfl
  simp (disch := decide) only [statementOf, get_stripped, isStr_stripped, isContainer_stripped,
    hbucket]
  split
  · exact h ‹_›
  split
  · exact strips_malformed _
  rename_i hkind
  cases Filing.declarationBucket? (j.get "kind") with
  | some bucket => exact .cons (Filing.declaration_strips j context bucket) .nil
  | none =>
    dsimp only
    split
    · exact variableStatement_strips j context
    split
    · exact .cons (Filing.exportAssignment_strips j context) .nil
    · exact .cons (Filing.otherStatement_strips j context (by simpa using hkind)) .nil

theorem blockOf_strips {isModule : Prop} (h : Strips isModule s t) (context : Text) :
    Forall₂ Site.Strips (blockOf j s context) (blockOf j.stripped t context) := by
  simp (disch := decide) only [blockOf, get_stripped, isNull_stripped]
  split
  · exact .cons (.fail rfl) .nil
  · exact h.statements context

theorem statementsOf_strips (context : Text)
    (h : ∀ i ∈ j.children,
      Forall₂ Site.Strips (i.tour.statement context) (i.stripped.tour.statement context)) :
    Forall₂ Site.Strips (statementsOf j (j.items.map tour) context)
      (statementsOf j.stripped (j.stripped.items.map tour) context) := by
  cases j with
  | arr items =>
    simp only [stripped, strippedItems_eq, statementsOf, Json.items, flatMap_map]
    exact Site.strips_flatMap h
  | obj fields =>
    simp only [stripped, statementsOf, isEmpty_strippedFields]
    split
    · exact .nil
    · exact strips_malformed _
  | str _ =>
    simp only [stripped, statementsOf]
    split
    · exact .nil
    · exact strips_malformed _
  | _ => exact strips_malformed _

end Tour

theorem Json.tour_strips (j : Json) :
    Tour.Strips ((j.get "kind").isStr "ModuleDeclaration" = true) j.tour j.stripped.tour := by
  induction j using Json.induct with
  | h j ih =>
    have hpart (key : Text) (hkey : key ∉ bookkeepingKeys) :
        Tour.Strips (((j.get key).get "kind").isStr "ModuleDeclaration" = true)
          (((j.field? key).map tour).getD (.failing .noFields))
          (((j.stripped.field? key).map tour).getD (.failing .noFields)) := by
      rw [field?_stripped j key hkey]
      cases hi : j.field? key with
      | none => exact Tour.failing_strips _ _
      | some i =>
        rw [get_of_field? hi]
        exact ih i (mem_children_of_field? hi)
    have hstatements (context : Text) := Tour.statementsOf_strips j context
      fun i hi => (ih i hi).statement context
    rw [tour_eq, tour_eq j.stripped]
    cases j with
    | obj fields =>
      have hmodule := Tour.moduleOf_strips (.obj fields) (hpart "body" (by decide))
      refine ⟨fun context => ?_, ?_, hstatements, fun hm => hmodule hm⟩
      · exact Tour.statementOf_strips (.obj fields) (fun hm => hmodule hm context none) context
      · exact Tour.blockOf_strips (.obj fields) (hpart "statements" (by decide))
    | _ =>
      exact ⟨fun _ => Tour.strips_malformed _, fun _ => Tour.strips_malformed _, hstatements,
        fun _ _ _ => Tour.strips_malformed _⟩

namespace Item

theorem name_stripped (item : Item) : item.stripped.name = item.name := by
  cases item with
  | declaration node => exact node.name_stripped
  | _ => rfl

theorem handleName_stripped (item : Item) : item.stripped.handleName = item.handleName := by
  simp only [handleName, name_stripped]

theorem toVariable?_stripped (item : Item) : item.stripped.toVariable? = item.toVariable? := by
  cases item <;> rfl

theorem stripped_rename (item : Item) (name : Text) :
    (item.rename name).stripped = item.stripped.rename name := by
  cases item with
  | declaration node =>
    obtain ⟨s⟩ := node
    simp only [rename, stripped, Node.rename, Node.stripped_mk]
    rfl
  | _ => rfl

end Item

namespace Sheet

theorem declarationItem_stripped (print : Shape Printed → Sheet)
    (hprint : ∀ s text, print { s with text := text } = print s) (item : Item) :
    declarationItem print item.stripped = declarationItem print item := by
  cases item with
  | declaration node =>
    show print (node.stripped.parts .declarations) = print (node.parts .declarations)
    rw [node.parts_stripped]
    exact hprint _ _
  | _ => rfl

theorem exportItem_stripped (item : Item) : exportItem item.stripped = exportItem item := by
  cases item with
  | declaration node =>
    obtain ⟨s⟩ := node
    simp only [exportItem, Item.name_stripped]
    simp only [Item.stripped, Item.isDefault, Node.stripped_mk]
    rfl
  | _ => rfl

theorem group_stripped {print : Item → Sheet} (hprint : ∀ item, print item.stripped = print item)
    (items : List Item) : group print (items.map Item.stripped) = group print items := by
  simp only [group, List.isEmpty_map, List.mapM_map, Function.comp_def, hprint]

end Sheet

def Module.stripped (m : Module) : Module where
  name := m.name
  functions := m.functions.map Item.stripped
  classes := m.classes.map Item.stripped
  types := m.types.map Item.stripped
  interfaces := m.interfaces.map Item.stripped
  exports := m.exports.map Item.stripped

theorem Sheet.block_stripped (rootName : Text) (m : Module) :
    block rootName m.stripped = block rootName m := by
  simp only [block, Module.stripped, group_stripped exportItem_stripped,
    group_stripped (declarationItem_stripped typeAlias fun _ _ => rfl),
    group_stripped (declarationItem_stripped interfaceDeclaration fun _ _ => rfl),
    group_stripped (declarationItem_stripped functionDeclaration fun _ _ => rfl),
    group_stripped (declarationItem_stripped classDeclaration fun _ _ => rfl)]

theorem Sheet.file_stripped (rootName : Text) (imports : List Import) (modules : List Module) :
    file rootName imports (modules.map Module.stripped) = file rootName imports modules := by
  have hprinted : Module.isPrinted ∘ Module.stripped = Module.isPrinted := by
    funext m
    simp [Module.isPrinted, Module.isEmpty, Module.stripped]
  simp only [file, List.filter_map, hprinted, List.mapM_map, Function.comp_def, block_stripped]

namespace Store

variable {store : Store}

def stripped (store : Store) : Store := store.mapItems fun _ item => item.stripped

theorem nextHandle_stripped (item : Item) (context : Text) (b : Bucket) :
    store.stripped.nextHandle item.stripped context b = store.nextHandle item context b := by
  simp [stripped, mapItems, nextHandle, size, Item.handleName_stripped]

theorem stripped_insert (item : Item) (context : Text) (b : Bucket) :
    store.stripped.insert item.stripped context b =
      ((store.insert item context b).1.stripped, (store.insert item context b).2) := by
  rw [insert, insert, nextHandle_stripped]
  simp [stripped, mapItems]

theorem itemsAt_stripped (context : Text) (b : Bucket) :
    store.stripped.itemsAt context b = (store.itemsAt context b).map Item.stripped := by
  rw [itemsAt_eq, stripped, entriesAt_mapItems, itemsAt_eq, List.map_map, List.map_map]
  rfl

theorem variablesAt_stripped (context : Text) :
    store.stripped.variablesAt context = store.variablesAt context := by
  rw [variablesAt, itemsAt_stripped, List.filterMap_map, variablesAt]
  exact congrArg (List.filterMap · _) (funext Item.toVariable?_stripped)

theorem moduleAt_stripped (context : Text) :
    store.stripped.moduleAt context = (store.moduleAt context).stripped := by
  simp only [moduleAt, itemsAt_stripped, Module.stripped]

end Store

namespace Conversion

def stripped (c : Conversion) : Conversion := { c with store := c.store.stripped }

theorem stripped_enterAll (c : Conversion) (entries : List Entry) :
    (c.enterAll entries).stripped = c.stripped.enterAll (entries.map Entry.stripped) := by
  have henter (c : Conversion) (entry : Entry) :
      (c.enter entry).stripped = c.stripped.enter entry.stripped := by
    cases entry with
    | item i context bucket =>
      simp only [enter, Entry.stripped, insert, stripped, Store.stripped_insert]
    | knownNamespace name =>
      have hknown : c.stripped.isNamespace name = c.isNamespace name := rfl
      simp only [enter, Entry.stripped, pushNamespace, hknown]
      split <;> rfl
    | _ => rfl
  induction entries generalizing c with
  | nil => rfl
  | cons entry rest ih =>
    simp only [enterAll, List.foldl_cons, List.map_cons, ← henter] at ih ⊢
    exact ih _

theorem requests_stripped (c : Conversion) : c.stripped.requests = c.requests := by
  have hvariables (context : Text) :
      c.stripped.store.variablesAt context = c.store.variablesAt context :=
    Store.variablesAt_stripped context
  simp only [requests, hvariables]
  rfl

theorem stripped_granted (c : Conversion) : c.granted.stripped = c.stripped.granted := by
  have hgrants (requests : List Request) (c : Conversion) :
      (requests.foldl grant c).stripped = requests.foldl grant c.stripped := by
    induction requests generalizing c with
    | nil => rfl
    | cons request rest ih =>
      have hgrant : (c.grant request).stripped = c.stripped.grant request := by
        cases request <;> rfl
      rw [List.foldl_cons, ih, hgrant, List.foldl_cons]
  rw [granted, hgrants, granted, requests_stripped]

theorem exportValue?_stripped (c : Conversion) (context : Text) (name : Option Text) :
    c.stripped.exportValue? context name = c.exportValue? context name := by
  simp only [exportValue?, exportTarget?, stripped, Store.variablesAt_stripped]

theorem stripped_relinkIn (c : Conversion) (done : List (Handle × Item)) (g : Handle)
    (item : Item) : (c.relinkIn done g item).stripped =
      c.stripped.relinkIn (done.map fun e => (e.1, e.2.stripped)) g item.stripped := by
  have hhandles : (done.map fun e => (e.1, e.2.stripped)).map Prod.fst = done.map Prod.fst := by
    rw [List.map_map]
    rfl
  simp only [relinkIn, hhandles]
  split
  · rw [relink, relink, exportValue?_stripped, item.name_stripped]
    cases c.exportValue? g.context item.name with
    | none => rfl
    | some value => exact item.stripped_rename value
  · rfl

theorem unresolved?_stripped (c : Conversion) (g : Handle) (item : Item) :
    c.stripped.unresolved? (g, item.stripped) = c.unresolved? (g, item) := by
  simp only [unresolved?, exportValue?_stripped, item.name_stripped]

theorem stripped_relinked (c : Conversion) : c.relinked.stripped = c.stripped.relinked := by
  have hentries : c.stripped.exportEntries = c.exportEntries.map fun e => (e.1, e.2.stripped) := by
    simp only [exportEntries, stripped, Store.stripped, Store.entriesAt_mapItems, List.map_flatMap]
  have hstore : (c.store.mapItems (c.relinkIn c.exportEntries)).stripped =
      c.store.stripped.mapItems (c.stripped.relinkIn c.stripped.exportEntries) := by
    simp only [Store.stripped, Store.mapItems_mapItems, stripped_relinkIn, hentries]
  have hlog : c.stripped.exportEntries.filterMap c.stripped.unresolved? =
      c.exportEntries.filterMap c.unresolved? := by
    rw [hentries, List.filterMap_map]
    exact congrArg (List.filterMap · _) (funext fun e => c.unresolved?_stripped e.1 e.2)
  simp only [relinked, relinkedAt, hlog]
  simp only [stripped, hstore]

theorem fileSheet_stripped {c : Conversion} (h : c.WellFiled) :
    c.stripped.fileSheet = c.fileSheet := by
  have h' : c.stripped.WellFiled := h.congr rfl (Store.handles_mapItems _)
  have hmodules : c.stripped.contexts.names.map c.stripped.store.moduleAt =
      (c.contexts.names.map c.store.moduleAt).map Module.stripped := by
    rw [List.map_map]
    exact List.map_congr_left fun context _ => Store.moduleAt_stripped context
  rw [fileSheet, fileSheet, modules_eq h, modules_eq h', hmodules]
  exact Sheet.file_stripped _ _ _

theorem render_stripped {c : Conversion} (h : c.WellFiled) :
    c.stripped.render = (c.render.1.stripped, c.render.2) := by
  rw [render, render, fileSheet_stripped h]
  rfl

theorem sitesOf_strips (trees : List Json) :
    Filing.Strips ((sitesOf trees).forM Site.filing)
      ((sitesOf (trees.map Json.stripped)).forM Site.filing) := by
  refine .sites ?_
  simp only [sitesOf, List.flatMap_map]
  exact Site.strips_flatMap fun tree _ => tree.tour_strips.block _

theorem collected_stripped (options : Options) (trees : List Json) :
    collected options (trees.map Json.stripped) = (collected options trees).stripped := by
  have hstart : ({ options := options } : Conversion).stripped = { options := options } := by
    simp [stripped, Store.stripped, Store.mapItems]
  rw [collected, (sitesOf_strips trees).log, collected, stripped_enterAll, hstart]

theorem resolved_stripped (options : Options) (trees : List Json) :
    resolved options (trees.map Json.stripped) = (resolved options trees).stripped := by
  rw [resolved, collected_stripped, ← stripped_granted, ← stripped_relinked, resolved]

theorem convert_stripped (options : Options) (trees : List Json) :
    Alike (fun c d => d = (c.1.stripped, c.2)) (fun e f => e.withoutKind = f.withoutKind)
      (convert options trees) (convert options (trees.map Json.stripped)) := by
  obtain ⟨_, _, hfiled, hfiled', -⟩ | ⟨e, e', hfiled, hfiled', he⟩ :=
    (sitesOf_strips trees).result.ok_or_error
  · rw [convert_of_pass options (Site.pass_iff.mp hfiled),
      convert_of_pass options (Site.pass_iff.mp hfiled'), resolved_stripped,
      render_stripped (wellFiled_resolved options trees)]
    cases (resolved options trees).render.2 with
    | error e => exact rfl
    | ok text => exact rfl
  · rw [convert_of_error options hfiled, convert_of_error options hfiled']
    exact he

/-- Both lists of trees convert to the same text, with the same reports, namespaces, contexts,
imports and listing, or both fail for the same cause. -/
structure ConvertAlike (options : Options) (trees others : List Json) : Prop where
  ends : Alike
    (fun c d => c.2 = d.2 ∧ c.1.log = d.1.log ∧ c.1.namespaces = d.1.namespaces ∧
      c.1.contexts = d.1.contexts ∧ c.1.imports = d.1.imports ∧ c.1.listing = d.1.listing)
    (fun e f => e.withoutKind = f.withoutKind) (convert options trees) (convert options others)

/-- Leaving out the bookkeeping of trees does not change how they convert, and neither does any
other change of it. -/
theorem convert_ignores_bookkeeping (options : Options) (trees : List Json) :
    ConvertAlike options trees (trees.map Json.stripped) ∧
      ∀ others : List Json, others.map Json.stripped = trees.map Json.stripped →
        ConvertAlike options trees others := by
  have hstripped := convert_stripped options trees
  refine ⟨⟨hstripped.imp ?_ fun _ _ => id⟩, fun others hsame => ⟨?_⟩⟩
  · rintro c d rfl
    exact ⟨rfl, rfl, rfl, rfl, rfl, rfl⟩
  · have hother := convert_stripped options others
    rw [hsame] at hother
    refine hstripped.join hother ?_ fun _ _ _ he hf => he.trans hf.symm
    rintro ⟨c, text⟩ ⟨d, text'⟩ _ rfl heq
    obtain ⟨hstate, htext⟩ := Prod.mk.inj heq
    have hfield {α : Type} (f : Conversion → α) : f c.stripped = f d.stripped := congrArg f hstate
    exact ⟨htext, hfield log, hfield namespaces, hfield contexts, hfield imports, hfield listing⟩

/-- A namespace with an interface, with positions and flags or with other values in their place, and
with a parent in the name of a member. -/
theorem convert_ignores_bookkeeping_nested :
    let name (parent : Json) := Json.obj [("kind", .str "Identifier"), ("parent", parent),
      ("text", .str "size")]
    let member (pos parent : Json) := Json.obj [("pos", pos), ("kind", .str "PropertySignature"),
      ("name", name parent), ("type", .obj [("kind", .str "NumberKeyword"), ("end", pos)])]
    let inner (pos parent flags : Json) := Json.obj [("flags", flags),
      ("kind", .str "InterfaceDeclaration"), ("name", .identifier "I"),
      ("members", .arr [member pos parent])]
    let tree (pos parent flags : Json) := Json.sourceFile [.namespaceNode "NS"
      [inner pos parent flags]]
    let trees := [tree (.int 3) (.obj []) (.int 1)]
    let others := [tree (.arr []) (.identifier "I") (.str "any")]
    others.map Json.stripped = trees.map Json.stripped ∧ ConvertAlike {} trees others ∧
      ConvertAlike {} trees (trees.map Json.stripped) ∧
      (convert {} others).toOption.map Prod.snd =
        some ("declare module 'npm$namespace$NS' \x7b\n" ++
          "\tdeclare interface I \x7b\n\t\tsize: number\n\t\x7d\n\x7d\n") := by
  intro name member inner tree trees others
  have hsame : others.map Json.stripped = trees.map Json.stripped := by
    simp [others, trees, tree, inner, member, name, Json.sourceFile, Json.namespaceNode,
      Json.identifier, Json.stripped, Json.strippedItems, Json.strippedFields, Json.isBookkeeping,
      Json.bookkeepingKeys, Json.field?, Json.get, Json.isStr, List.lookup_cons]
  obtain ⟨hcut, hchanged⟩ := convert_ignores_bookkeeping {} trees
  exact ⟨hsame, hchanged others hsame, hcut, by decide +kernel⟩

end Conversion
end Libdef
