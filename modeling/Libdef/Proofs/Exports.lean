import Mathlib.Data.List.Nodup
import Libdef.Proofs.Linking

set_option autoImplicit false

namespace Libdef

namespace Store

variable {store : Store}

def entriesAt (store : Store) (context : Text) (b : Bucket) : List (Handle × Item) :=
  store.entries.toList.filter fun e => e.1.context == context && e.1.bucket == b

theorem itemsAt_eq (context : Text) (b : Bucket) :
    store.itemsAt context b = (store.entriesAt context b).map Prod.snd := rfl

theorem mem_entriesAt {context : Text} {b : Bucket} {e : Handle × Item} :
    e ∈ store.entriesAt context b ↔
      e ∈ store.entries.toList ∧ e.1.context = context ∧ e.1.bucket = b := by
  simp [entriesAt]

theorem nodup_entriesAt (hn : Numbered store.handles) (context : Text) (b : Bucket) :
    ((store.entriesAt context b).map Prod.fst).Nodup :=
  hn.nodup.sublist (List.filter_sublist.map Prod.fst)

theorem eq_of_fst_eq (hn : Numbered store.handles) {e f : Handle × Item}
    (he : e ∈ store.entries.toList) (hf : f ∈ store.entries.toList) (h : e.1 = f.1) : e = f := by
  have hitem := (fetch_of_mem hn he).symm.trans (h ▸ fetch_of_mem hn hf)
  exact Prod.ext h (Except.ok.inj hitem)

def mapItems (f : Handle → Item → Item) (store : Store) : Store where
  entries := store.entries.map fun e => (e.1, f e.1 e.2)

theorem handles_mapItems (f : Handle → Item → Item) :
    (store.mapItems f).handles = store.handles := by
  simp [mapItems, handles, Function.comp_def]

theorem mem_entries_mapItems (f : Handle → Item → Item) {e : Handle × Item}
    (he : e ∈ store.entries.toList) : (e.1, f e.1 e.2) ∈ (store.mapItems f).entries.toList := by
  rw [mapItems, Array.toList_map]
  exact List.mem_map_of_mem he

theorem entriesAt_mapItems (f : Handle → Item → Item) (context : Text) (b : Bucket) :
    (store.mapItems f).entriesAt context b =
      (store.entriesAt context b).map fun e => (e.1, f e.1 e.2) := by
  simp only [mapItems, entriesAt, Array.toList_map, List.filter_map]
  rfl

theorem mapItems_congr {f g : Handle → Item → Item}
    (h : ∀ e ∈ store.entries.toList, f e.1 e.2 = g e.1 e.2) :
    store.mapItems f = store.mapItems g := by
  simp only [mapItems, mk.injEq]
  apply Array.toList_inj.mp
  simp only [Array.toList_map]
  exact List.map_congr_left fun e he => by rw [h e he]

theorem mapItems_mapItems (f g : Handle → Item → Item) :
    (store.mapItems f).mapItems g = store.mapItems fun h item => g h (f h item) := by
  simp [mapItems, Function.comp_def]

theorem modify_eq_mapItems (hn : Numbered store.handles) {h : Handle} (hh : h ∈ store.handles)
    (change : Item → Item) :
    store.modify h change = store.mapItems fun g item => if g = h then change item else item := by
  obtain ⟨i, hi⟩ := List.mem_iff_getElem?.mp hh
  have hindex : h.index = i := hn i h hi
  have hpos : ¬(i : Int) < 0 := by omega
  simp only [modify, mapItems, hindex, hpos, if_false, mk.injEq]
  apply Array.toList_inj.mp
  apply List.ext_getElem?
  intro j
  simp only [Array.toList_modify, Array.toList_map, List.getElem?_modify, List.getElem?_map,
    Int.toNat_natCast]
  cases he : store.entries.toList[j]? with
  | none => simp
  | some e =>
    have hj : store.handles[j]? = some e.1 := by simp [handles, he]
    by_cases hij : i = j
    · subst hij
      have heq : e.1 = h := Option.some.inj (hj.symm.trans hi)
      simp [heq]
    · have hne : e.1 ≠ h := by
        intro heq
        have hindex' := hn j e.1 hj
        rw [heq, hindex] at hindex'
        omega
      simp [hij, hne]

end Store

def Item.toVariable? : Item → Option Variable
  | .variable v => some v
  | _ => none

theorem Item.eq_map_filterMap {α : Type} (wrap : α → Item) (unwrap : Item → Option α)
    (hwrap : ∀ a, unwrap (wrap a) = some a) {items : List Item}
    (h : ∀ item ∈ items, ∃ a, item = wrap a) : items = (items.filterMap unwrap).map wrap := by
  induction items with
  | nil => rfl
  | cons item rest ih =>
    obtain ⟨a, rfl⟩ := h item (by simp)
    have hrest := ih fun x hx => h x (by simp [hx])
    simp only [List.filterMap_cons, hwrap, List.map_cons, ← hrest]

def Store.variablesAt (store : Store) (context : Text) : List Variable :=
  (store.itemsAt context .variables).filterMap Item.toVariable?

def lastNamed (vs : List Variable) (name : Option Text) : Option Variable :=
  (vs.filter fun v => some v.name == name).getLast?

/-- The variable that an export names: the last of its name in its own context, else in the root. -/
def exportedVariable (own root : List Variable) (name : Option Text) : Option Variable :=
  (lastNamed own name).or (lastNamed root name)

namespace Conversion

variable {c : Conversion}

def HoldsVariables (c : Conversion) : Prop :=
  ∀ context, ∀ item ∈ c.store.itemsAt context .variables, ∃ v, item = .variable v

theorem HoldsVariables.itemsAt_eq (hv : c.HoldsVariables) (context : Text) :
    c.store.itemsAt context .variables = (c.store.variablesAt context).map .variable :=
  Item.eq_map_filterMap .variable Item.toVariable? (fun _ => rfl) (hv context)

theorem forEach_eq_ok {α : Type} (step : α → Conversion → Step) (state : List α → Conversion)
    {l : List α} (hstep : ∀ done a rest, l = done ++ a :: rest →
      step a (state done) = ⟨state (done ++ [a]), .ok ()⟩) :
    forEach step l (state []) = ⟨state l, .ok ()⟩ := by
  have hloop (rest : List α) : ∀ done, l = done ++ rest →
      forEach step rest (state done) = ⟨state l, .ok ()⟩ := by
    induction rest with
    | nil =>
      intro done hl
      rw [hl, List.append_nil]
      rfl
    | cons a rest ih =>
      intro done hl
      rw [forEach, hstep done a rest hl]
      exact ih (done ++ [a]) (by simp [hl])
  exact hloop l [] rfl

def requests (c : Conversion) : List Request :=
  c.contexts.names.flatMap fun context =>
    (c.store.variablesAt context).flatMap (Linking.ofVariable c.isNamespace context)

theorem HoldsVariables.holds (hv : c.HoldsVariables) (h : c.WellFiled) :
    c.Holds c.store.variablesAt :=
  fun context _ => by rw [items_eq h, hv.itemsAt_eq]

theorem link_eq (h : c.WellFiled) (hv : c.HoldsVariables) : c.link = ⟨c.requests, .ok ()⟩ :=
  link_of_holds (hv.holds h)

def exportTarget? (c : Conversion) (context : Text) (name : Option Text) : Option Variable :=
  exportedVariable (c.store.variablesAt context) (c.store.variablesAt ModuleName.root) name

def exportValue? (c : Conversion) (context : Text) (name : Option Text) : Option Text :=
  (c.exportTarget? context name).map Variable.value

theorem findVariable_eq (h : c.WellFiled) (hv : c.HoldsVariables) (context : Text)
    (name : Option Text) : c.findVariable context name =
      .ok ((lastNamed (c.store.variablesAt context) name).map .variable) := by
  rw [findVariable, items_eq h, hv.itemsAt_eq]
  simp only [lastNamed, Bind.bind, Except.bind, Pure.pure, Except.pure, List.filter_map,
    List.getLast?_map]
  rfl

theorem findExportTarget_eq (h : c.WellFiled) (hv : c.HoldsVariables) (context : Text)
    (name : Option Text) : c.findExportTarget context name =
      .ok ((c.exportTarget? context name).map .variable) := by
  simp only [findExportTarget, findVariable_eq h hv, exportTarget?, exportedVariable]
  cases hown : lastNamed (c.store.variablesAt context) name with
  | some v => rfl
  | none =>
    by_cases hroot : context = ModuleName.root
    · subst hroot
      simp [hown, Bind.bind, Except.bind, Pure.pure, Except.pure]
    · simp [hroot, Bind.bind, Except.bind]

theorem exportName_eq (h : c.WellFiled) (hv : c.HoldsVariables) (context : Text)
    (name : Option Text) : c.exportName context name = .ok (c.exportValue? context name) := by
  rw [exportName, findExportTarget_eq h hv, exportValue?]
  cases c.exportTarget? context name <;> rfl

/-- An item as an export of a context: it takes on the value of the variable it names. -/
def relink (c : Conversion) (context : Text) (item : Item) : Item :=
  (c.exportValue? context item.name).elim item item.rename

def unresolved? (c : Conversion) (e : Handle × Item) : Option Diagnostic :=
  match c.exportValue? e.1.context e.2.name with
  | none => some (unresolved e.1.context e.2.name)
  | some _ => none

def relinkIn (c : Conversion) (done : List (Handle × Item)) (g : Handle) (item : Item) : Item :=
  if g ∈ done.map Prod.fst then c.relink g.context item else item

theorem relinkIn_append (done : List (Handle × Item)) (e : Handle × Item) (g : Handle)
    (item : Item) : c.relinkIn (done ++ [e]) g item =
      if g = e.1 then c.relink g.context item else c.relinkIn done g item := by
  have hmem : g ∈ (done ++ [e]).map Prod.fst ↔ g = e.1 ∨ g ∈ done.map Prod.fst := by
    rw [List.map_append, List.mem_append, List.map_singleton, List.mem_singleton, or_comm]
  simp only [relinkIn, hmem]
  by_cases hg : g = e.1 <;> simp only [hg, true_or, false_or, if_true, if_false]

def relinkedAt (c : Conversion) (done : List (Handle × Item)) : Conversion :=
  { c with
    store := c.store.mapItems (c.relinkIn done)
    log := c.log.addAll (done.filterMap c.unresolved?) }

section

variable {done : List (Handle × Item)}

theorem relinkedAt_nil : c.relinkedAt [] = c := by
  simp [relinkedAt, relinkIn, Store.mapItems, Log.addAll]

theorem itemsAt_relinkedAt (hd : ∀ e ∈ done, e.1.bucket = .exports) (context : Text)
    {b : Bucket} (hb : b ≠ .exports) :
    (c.relinkedAt done).store.itemsAt context b = c.store.itemsAt context b := by
  simp only [Store.itemsAt_eq, relinkedAt, Store.entriesAt_mapItems, List.map_map]
  apply List.map_congr_left
  intro e he
  have hnot : e.1 ∉ done.map Prod.fst := by
    intro hmem
    obtain ⟨f, hf, hfe⟩ := List.mem_map.mp hmem
    exact hb ((Store.mem_entriesAt.mp he).2.2.symm.trans (hfe ▸ hd f hf))
  exact if_neg hnot

theorem WellFiled.relinkedAt (h : c.WellFiled) (done : List (Handle × Item)) :
    (c.relinkedAt done).WellFiled :=
  h.congr rfl (Store.handles_mapItems _)

theorem exportName_relinkedAt (h : c.WellFiled) (hv : c.HoldsVariables)
    (hd : ∀ e ∈ done, e.1.bucket = .exports) (context : Text) (name : Option Text) :
    (c.relinkedAt done).exportName context name = .ok (c.exportValue? context name) := by
  have hitems (x : Text) := itemsAt_relinkedAt (c := c) hd x (b := .variables) (by decide)
  have hv' : (c.relinkedAt done).HoldsVariables := fun x item hi => hv x item (hitems x ▸ hi)
  rw [exportName_eq (h.relinkedAt done) hv']
  simp only [exportValue?, exportTarget?, Store.variablesAt, hitems]

/-- One more export is resolved as it would have been first. -/
theorem resolveExport_relinkedAt (h : c.WellFiled) (hv : c.HoldsVariables)
    (hd : ∀ e ∈ done, e.1.bucket = .exports) {context : Text} {e : Handle × Item}
    (he : e ∈ c.store.entriesAt context .exports) (hnew : e.1 ∉ done.map Prod.fst) :
    resolveExport context e.1 (c.relinkedAt done) = ⟨c.relinkedAt (done ++ [e]), .ok ()⟩ := by
  obtain ⟨hmem, rfl, -⟩ := Store.mem_entriesAt.mp he
  have hw := h.relinkedAt done
  have hkept : (e.1, e.2) ∈ (c.relinkedAt done).store.entries.toList := by
    have hmap := Store.mem_entries_mapItems (c.relinkIn done) hmem
    rwa [relinkIn, if_neg hnew] at hmap
  -- The step changes the item of `e` and no other.
  have hstore (f : Item → Item) (hf : f e.2 = c.relink e.1.context e.2) :
      c.store.mapItems (c.relinkIn (done ++ [e])) = c.store.mapItems fun g item =>
        if g = e.1 then f (c.relinkIn done g item) else c.relinkIn done g item := by
    apply Store.mapItems_congr
    intro x hx
    rw [relinkIn_append]
    by_cases hxe : x.1 = e.1
    · obtain rfl := Store.eq_of_fst_eq h.numbered hx hmem hxe
      rw [if_pos rfl, if_pos rfl, relinkIn, if_neg hnew, hf]
    · rw [if_neg hxe, if_neg hxe]
  simp only [resolveExport, Store.fetch_of_mem hw.numbered hkept, exportName_relinkedAt h hv hd]
  cases hvalue : c.exportValue? e.1.context e.2.name with
  | none =>
    have hsame := hstore id (by simp [relink, hvalue])
    simp only [id, ite_self] at hsame
    simp [relinkedAt, hsame, report, unresolved?, hvalue, Log.addAll]
  | some value =>
    have hhandle : e.1 ∈ (c.relinkedAt done).store.handles := List.mem_map_of_mem hkept
    have hrenamed := hstore (·.rename value) (by simp [relink, hvalue])
    simp only [Store.modify_eq_mapItems hw.numbered hhandle]
    simp [relinkedAt, hrenamed, Store.mapItems_mapItems, unresolved?, hvalue]

theorem resolveContextExports_relinkedAt (h : c.WellFiled) (hv : c.HoldsVariables)
    (hd : ∀ e ∈ done, e.1.bucket = .exports) {context : Text}
    (hnew : ∀ e ∈ done, e.1.context ≠ context) :
    resolveContextExports context (c.relinkedAt done) =
      ⟨c.relinkedAt (done ++ c.store.entriesAt context .exports), .ok ()⟩ := by
  have hw := h.relinkedAt done
  have hbucket : (c.relinkedAt done).contexts.bucket context .exports =
      (c.store.entriesAt context .exports).map Prod.fst := by
    rw [relinkedAt, h.lists.bucket_eq, Store.handles, List.filter_map]
    rfl
  have hitems := items_eq hw context .exports
  simp only [items, hbucket] at hitems
  simp only [resolveContextExports, hitems, hbucket, forEach_map]
  have hloop := forEach_eq_ok (l := c.store.entriesAt context .exports)
    (fun e => resolveExport context e.1) (fun es => c.relinkedAt (done ++ es))
    fun es e rest hes => ?_
  · simpa using hloop
  have hmem (f : Handle × Item) (hf : f ∈ es) : f ∈ c.store.entriesAt context .exports := by
    simp [hes, hf]
  have he : e ∈ c.store.entriesAt context .exports := by simp [hes]
  have hlater : e.1 ∉ es.map Prod.fst := by
    have hn := Store.nodup_entriesAt h.numbered context .exports
    rw [hes, List.map_append, List.nodup_append] at hn
    intro hmem
    exact hn.2.2 e.1 hmem e.1 (by simp) rfl
  rw [← List.append_assoc]
  refine resolveExport_relinkedAt h hv ?_ he ?_
  · intro f hf
    rcases List.mem_append.mp hf with hf | hf
    · exact hd f hf
    · exact (Store.mem_entriesAt.mp (hmem f hf)).2.2
  · rw [List.map_append, List.mem_append, not_or]
    refine ⟨fun hin => ?_, hlater⟩
    obtain ⟨f, hf, hfe⟩ := List.mem_map.mp hin
    exact hnew f hf (hfe ▸ (Store.mem_entriesAt.mp he).2.1)

end

def exportEntries (c : Conversion) : List (Handle × Item) :=
  c.contexts.names.flatMap fun context => c.store.entriesAt context .exports

def relinked (c : Conversion) : Conversion := c.relinkedAt c.exportEntries

theorem resolveExports_eq (h : c.WellFiled) (hv : c.HoldsVariables) :
    c.resolveExports = ⟨c.relinked, .ok ()⟩ := by
  have hloop := forEach_eq_ok (l := c.contexts.names) resolveContextExports
    (fun done => c.relinkedAt (done.flatMap fun x => c.store.entriesAt x .exports))
    fun done context rest hnames => ?_
  · rw [List.flatMap_nil, relinkedAt_nil] at hloop
    exact hloop
  have hfiled (e : Handle × Item) (he : e ∈ done.flatMap fun x => c.store.entriesAt x .exports) :
      e.1.context ∈ done ∧ e.1.bucket = .exports := by
    obtain ⟨x, hx, hex⟩ := List.mem_flatMap.mp he
    obtain ⟨-, rfl, hb⟩ := Store.mem_entriesAt.mp hex
    exact ⟨hx, hb⟩
  have hnew : context ∉ done := by
    have hn := h.lists.nodup
    rw [hnames, List.nodup_append] at hn
    intro hmem
    exact hn.2.2 context hmem context (by simp) rfl
  rw [List.flatMap_append, List.flatMap_singleton]
  exact resolveContextExports_relinkedAt h hv (fun e he => (hfiled e he).2)
    fun e he heq => hnew (heq ▸ (hfiled e he).1)

theorem mem_exportEntries (h : c.WellFiled) {e : Handle × Item}
    (he : e ∈ c.store.entries.toList) : e ∈ c.exportEntries ↔ e.1.bucket = .exports := by
  have hcontext := h.lists.context_mem e.1 (List.mem_map_of_mem he)
  simp [exportEntries, Store.mem_entriesAt, he, hcontext]

theorem fst_mem_exportEntries (h : c.WellFiled) {e : Handle × Item}
    (he : e ∈ c.store.entries.toList) :
    e.1 ∈ c.exportEntries.map Prod.fst ↔ e.1.bucket = .exports := by
  rw [← mem_exportEntries h he]
  refine ⟨fun hin => ?_, fun hin => List.mem_map_of_mem hin⟩
  obtain ⟨f, hf, hfe⟩ := List.mem_map.mp hin
  obtain ⟨x, -, hfx⟩ := List.mem_flatMap.mp hf
  exact Store.eq_of_fst_eq h.numbered (Store.mem_entriesAt.mp hfx).1 he hfe ▸ hf

/-- Exports take on the values of the variables they name; all else stays as it is. -/
theorem entriesAt_relinked (h : c.WellFiled) (context : Text) (b : Bucket) :
    c.relinked.store.entriesAt context b = (c.store.entriesAt context b).map fun e =>
      (e.1, if b = .exports then c.relink context e.2 else e.2) := by
  rw [relinked, relinkedAt, Store.entriesAt_mapItems]
  apply List.map_congr_left
  intro e he
  obtain ⟨hmem, rfl, rfl⟩ := Store.mem_entriesAt.mp he
  simp only [relinkIn, fst_mem_exportEntries h hmem]

def granted (c : Conversion) : Conversion := c.requests.foldl grant c

theorem resolve_eq (h : c.WellFiled) (hv : c.HoldsVariables) :
    c.resolve = ⟨c.granted.relinked, .ok ()⟩ := by
  obtain ⟨hs, hstore⟩ := c.grants_frame c.requests
  have hv' : c.granted.HoldsVariables := by
    intro context item hi
    rw [granted, hstore] at hi
    exact hv context item hi
  simp only [resolve, resolveVariables, link_eq h hv, Step.andThen]
  exact resolveExports_eq (hs.wellFiled h) hv'

end Conversion
end Libdef
