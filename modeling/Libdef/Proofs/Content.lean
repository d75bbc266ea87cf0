import Libdef.Proofs.Collection
import Libdef.Proofs.Exports

set_option autoImplicit false

namespace Libdef

def Store.contentAt (store : Store) (context : Text) (b : Bucket) : List (Text × Item) :=
  (store.entriesAt context b).map fun e => (e.1.name, e.2)

theorem Store.itemsAt_eq_content (store : Store) (context : Text) (b : Bucket) :
    store.itemsAt context b = (store.contentAt context b).map Prod.snd := by
  rw [itemsAt_eq, contentAt, List.map_map]
  rfl

structure Log.Perm (l m : Log) : Prop where
  records : l.records.Perm m.records
  warnings : l.warnings.Perm m.warnings

namespace Log.Perm

variable {l m n : Log}

theorem refl (l : Log) : l.Perm l := ⟨.refl _, .refl _⟩

theorem trans (h : l.Perm m) (h' : m.Perm n) : l.Perm n :=
  ⟨h.records.trans h'.records, h.warnings.trans h'.warnings⟩

theorem add (h : l.Perm m) (d : Diagnostic) : (l.add d).Perm (m.add d) := by
  refine ⟨h.records.append_right _, ?_⟩
  simp only [Log.add]
  split
  · exact h.warnings.append_right _
  · exact h.warnings

theorem addAll (h : l.Perm m) (ds : List Diagnostic) : (l.addAll ds).Perm (m.addAll ds) := by
  induction ds generalizing l m with
  | nil => exact h
  | cons d ds ih => exact ih (h.add d)

theorem add_add (l : Log) (d e : Diagnostic) : ((l.add d).add e).Perm ((l.add e).add d) := by
  have hswap {α : Type} (as : List α) (a b : α) : (as ++ [a] ++ [b]).Perm (as ++ [b] ++ [a]) := by
    simp only [List.append_assoc]
    exact (List.Perm.swap b a []).append_left as
  refine ⟨hswap _ _ _, ?_⟩
  cases hd : d.kind.isWarning with
  | false => simp [Log.add, hd]
  | true =>
    cases he : e.kind.isWarning with
    | false => simp [Log.add, hd, he]
    | true => simpa only [Log.add, hd, he, if_true] using hswap _ _ _

end Log.Perm

namespace Conversion

/-- The conversions differ in the numbers of handles and in the order of reports at most. -/
structure SameContent (c d : Conversion) : Prop where
  options : c.options = d.options
  namespaces : c.namespaces = d.namespaces
  contexts : c.contexts.names = d.contexts.names
  imports : c.imports = d.imports
  content : c.store.contentAt = d.store.contentAt
  log : c.log.Perm d.log

variable {c d : Conversion}

namespace SameContent

theorem refl (c : Conversion) : SameContent c c := ⟨rfl, rfl, rfl, rfl, rfl, .refl _⟩

theorem trans {e : Conversion} (h : SameContent c d) (h' : SameContent d e) : SameContent c e where
  options := h.options.trans h'.options
  namespaces := h.namespaces.trans h'.namespaces
  contexts := h.contexts.trans h'.contexts
  imports := h.imports.trans h'.imports
  content := h.content.trans h'.content
  log := h.log.trans h'.log

theorem itemsAt_eq (h : SameContent c d) : c.store.itemsAt = d.store.itemsAt := by
  funext context b
  rw [Store.itemsAt_eq_content, Store.itemsAt_eq_content, h.content]

theorem isNamespace_eq (h : SameContent c d) : c.isNamespace = d.isNamespace := by
  funext name
  simp only [isNamespace, h.namespaces]

theorem report (h : SameContent c d) (r : Diagnostic) : SameContent (c.report r) (d.report r) :=
  { h with log := h.log.add r }

theorem reportAll (h : SameContent c d) (rs : List Diagnostic) :
    SameContent (c.reportAll rs) (d.reportAll rs) :=
  { h with log := h.log.addAll rs }

theorem grant (h : SameContent c d) (request : Request) :
    SameContent (c.grant request) (d.grant request) := by
  cases request with
  | name name module => exact { h with imports := by simp only [Conversion.grant, h.imports] }
  | binding name module => exact { h with imports := by simp only [Conversion.grant, h.imports] }
  | report r => exact h.report r

theorem grants (h : SameContent c d) (requests : List Request) :
    SameContent (requests.foldl Conversion.grant c) (requests.foldl Conversion.grant d) := by
  induction requests generalizing c d with
  | nil => exact h
  | cons request rest ih => exact ih (h.grant request)

theorem variablesAt_eq (h : SameContent c d) : c.store.variablesAt = d.store.variablesAt := by
  funext context
  rw [Store.variablesAt, Store.variablesAt, h.itemsAt_eq]

theorem granted (h : SameContent c d) : SameContent c.granted d.granted := by
  have hrequests : c.requests = d.requests := by
    simp only [requests, h.contexts, h.variablesAt_eq, h.isNamespace_eq]
  rw [Conversion.granted, Conversion.granted, hrequests]
  exact h.grants d.requests

theorem exportValue?_eq (h : SameContent c d) : c.exportValue? = d.exportValue? := by
  funext context name
  simp only [exportValue?, exportTarget?, h.variablesAt_eq]

end SameContent

theorem unresolved_eq (c : Conversion) :
    c.exportEntries.filterMap c.unresolved? = c.contexts.names.flatMap fun context =>
      ((c.store.contentAt context .exports).map Prod.snd).filterMap fun item =>
        (c.exportValue? context item.name).elim (some (unresolved context item.name))
          fun _ => none := by
  rw [exportEntries, List.filterMap_flatMap]
  apply List.flatMap_congr
  intro context _
  rw [Store.contentAt, List.map_map, List.filterMap_map]
  apply List.filterMap_congr
  intro e he
  obtain ⟨-, rfl, -⟩ := Store.mem_entriesAt.mp he
  simp only [unresolved?, Function.comp_apply]
  cases c.exportValue? e.1.context e.2.name <;> rfl

theorem contentAt_relinked (h : c.WellFiled) (context : Text) (b : Bucket) :
    c.relinked.store.contentAt context b = (c.store.contentAt context b).map fun e =>
      (e.1, if b = .exports then c.relink context e.2 else e.2) := by
  simp only [Store.contentAt, entriesAt_relinked h, List.map_map, Function.comp_def]

namespace SameContent

theorem relinked (h : SameContent c d) (hc : c.WellFiled) (hd : d.WellFiled) :
    SameContent c.relinked d.relinked := by
  have hreports : c.exportEntries.filterMap c.unresolved? =
      d.exportEntries.filterMap d.unresolved? := by
    simp only [unresolved_eq, h.contexts, h.content, h.exportValue?_eq]
  refine ⟨h.options, h.namespaces, h.contexts, h.imports, ?_, ?_⟩
  · funext context b
    simp only [contentAt_relinked hc, contentAt_relinked hd, h.content, relink, h.exportValue?_eq]
  · simp only [Conversion.relinked, relinkedAt, hreports]
    exact h.log.addAll _

theorem fileSheet_eq (h : SameContent c d) (hc : c.WellFiled) (hd : d.WellFiled) :
    c.fileSheet = d.fileSheet := by
  have hmodule : c.store.moduleAt = d.store.moduleAt := by
    funext context
    simp only [Store.moduleAt, h.itemsAt_eq]
  rw [fileSheet, fileSheet, modules_eq hc, modules_eq hd, h.contexts, hmodule, h.options, h.imports]

theorem render (h : SameContent c d) (hc : c.WellFiled) (hd : d.WellFiled) :
    c.render.2 = d.render.2 ∧ SameContent c.render.1 d.render.1 := by
  simp only [Conversion.render, printed, h.fileSheet_eq hc hd, h.options]
  exact ⟨trivial, h.reportAll _⟩

end SameContent

theorem contentAt_insert (c : Conversion) (item : Item) (x : Text) (b : Bucket)
    (context : Text) (bucket : Bucket) :
    (c.insert item x b).1.store.contentAt context bucket = c.store.contentAt context bucket ++
      if x = context ∧ b = bucket then [(item.handleName, item)] else [] := by
  simp only [insert, Store.insert, Store.contentAt, Store.entriesAt, Array.toList_push,
    List.filter_append, List.map_append]
  congr 1
  by_cases hx : x = context ∧ b = bucket
  · simp [Store.nextHandle, hx]
  · simp [Store.nextHandle, hx]

theorem names_insert (c : Conversion) (item : Item) (x : Text) (b : Bucket) :
    (c.insert item x b).1.contexts.names = (c.contexts.request x).names :=
  Contexts.names_file _ _ _

namespace SameContent

theorem names_request (h : SameContent c d) (name : Text) :
    (c.contexts.request name).names = (d.contexts.request name).names := by
  rw [Contexts.names_request, Contexts.names_request, h.contexts]

theorem insert (h : SameContent c d) (item : Item) (x : Text) (b : Bucket) :
    SameContent (c.insert item x b).1 (d.insert item x b).1 where
  options := h.options
  namespaces := h.namespaces
  contexts := by rw [names_insert, names_insert, h.names_request]
  imports := h.imports
  content := by
    funext context bucket
    rw [contentAt_insert, contentAt_insert, h.content]
  log := h.log

theorem enter (h : SameContent c d) (entry : Entry) :
    SameContent (c.enter entry) (d.enter entry) := by
  cases entry with
  | item item x b => exact h.insert item x b
  | knownNamespace name =>
    simp only [Conversion.enter, pushNamespace, h.isNamespace_eq, h.namespaces]
    cases d.isNamespace name with
    | true => exact h
    | false => exact { h with namespaces := rfl }
  | knownContext name => exact { h with contexts := h.names_request name }
  | report r => exact h.report r

theorem enterAll (h : SameContent c d) (entries : List Entry) :
    SameContent (c.enterAll entries) (d.enterAll entries) := by
  induction entries generalizing c d with
  | nil => exact h
  | cons entry rest ih => exact ih (h.enter entry)

end SameContent

end Conversion

/-- Two entries that may be entered in either order: items for different buckets of one context,
and reports. -/
def Entry.Apart : Entry → Entry → Prop
  | .item _ x b, .item _ y b' => x = y ∧ b ≠ b'
  | .item _ _ _, .report _ | .report _, .item _ _ _ | .report _, .report _ => True
  | _, _ => False

namespace Conversion

variable {c d : Conversion}

theorem enter_enter (c : Conversion) {e f : Entry} (h : e.Apart f) :
    SameContent ((c.enter e).enter f) ((c.enter f).enter e) := by
  match e, f, h with
  | .item i x b, .item j _ b', ⟨rfl, hb⟩ =>
    refine ⟨rfl, rfl, ?_, rfl, ?_, .refl _⟩
    · simp only [enter, names_insert, Contexts.names_request]
    · funext context bucket
      simp only [enter, contentAt_insert, List.append_assoc]
      congr 1
      by_cases h₁ : b = bucket
      · have h₂ : b' ≠ bucket := fun he => hb (h₁.trans he.symm)
        simp [h₂]
      · simp [h₁]
  | .item _ _ _, .report _, _ => exact .refl _
  | .report _, .item _ _ _, _ => exact .refl _
  | .report r, .report s, _ => exact ⟨rfl, rfl, rfl, rfl, rfl, .add_add c.log r s⟩

theorem enterAll_enter (c : Conversion) {e : Entry} {entries : List Entry}
    (h : ∀ f ∈ entries, e.Apart f) :
    SameContent ((c.enter e).enterAll entries) ((c.enterAll entries).enter e) := by
  induction entries generalizing c with
  | nil => exact .refl _
  | cons f rest ih =>
    have hfirst := (c.enter_enter (h f (by simp))).enterAll rest
    exact hfirst.trans (ih (c.enter f) fun g hg => h g (by simp [hg]))

theorem enterAll_comm (c : Conversion) {es fs : List Entry} (h : ∀ e ∈ es, ∀ f ∈ fs, e.Apart f) :
    SameContent (c.enterAll (es ++ fs)) (c.enterAll (fs ++ es)) := by
  induction es generalizing c with
  | nil =>
    rw [List.append_nil]
    exact .refl _
  | cons e es ih =>
    have hrest := ih (c.enter e) fun g hg => h g (by simp [hg])
    have hmove := (c.enterAll_enter (h e (by simp))).enterAll es
    rw [enterAll_append _ fs es] at hrest
    rw [enterAll_append c fs]
    exact hrest.trans hmove

/-- Whatever the trees are, what is filed may be malformed but is never misplaced. -/
theorem fits_collected_malformed (options : Options) (trees : List Json) :
    (collected options trees).Fits fun e => e.isMalformed = true := by
  apply fits_collected_of_allows
  intro tree _
  exact .inl fun _ he => he

theorem holdsVariables_collected (options : Options) (trees : List Json) :
    (collected options trees).HoldsVariables := by
  intro context item hi
  have hfits : item.Fits (fun e => e.isMalformed = true) .variables :=
    (fits_collected_malformed options trees).of_mem_itemsAt hi
  cases item with
  | «variable» v => exact ⟨v, rfl⟩
  | _ => cases hfits

def resolved (options : Options) (trees : List Json) : Conversion :=
  (collected options trees).granted.relinked

theorem wellFiled_granted (options : Options) (trees : List Json) :
    (collected options trees).granted.WellFiled :=
  (grants_frame _ _).1.wellFiled (wellFiled_collected options trees)

theorem wellFiled_resolved (options : Options) (trees : List Json) :
    (resolved options trees).WellFiled :=
  (wellFiled_granted options trees).relinkedAt _

variable {trees trees' : List Json}

theorem collected_of_pass (options : Options) (h : Site.Pass (sitesOf trees)) :
    collected options trees =
      ({ options := options } : Conversion).enterAll (Site.entries (sitesOf trees)) := by
  rw [collected, h.log_eq]

theorem convert_of_pass (options : Options) (h : Site.Pass (sitesOf trees)) :
    convert options trees = (resolved options trees).render.2.map fun text =>
      ((resolved options trees).render.1, text) := by
  have hresolve := resolve_eq (wellFiled_collected options trees)
    (holdsVariables_collected options trees)
  rw [convert_of_ok options (Site.pass_iff.mpr h), hresolve]
  show (resolved options trees).render.2 >>= _ = _
  cases (resolved options trees).render.2 <;> rfl

theorem convert_of_not_pass (options : Options) (h : ¬Site.Pass (sitesOf trees)) :
    ∃ e, convert options trees = .error e := by
  cases hr : ((sitesOf trees).forM Site.filing).result with
  | error e => exact ⟨e, convert_of_error options hr⟩
  | ok u => exact (h (Site.pass_iff.mp hr)).elim

theorem convert_alike_of_sameContent (options : Options)
    (h : Site.Pass (sitesOf trees)) (h' : Site.Pass (sitesOf trees'))
    (hsame : SameContent (collected options trees) (collected options trees')) :
    Alike (fun c d => c.2 = d.2 ∧ SameContent c.1 d.1) (· = ·)
      (convert options trees) (convert options trees') := by
  have hresolved : SameContent (resolved options trees) (resolved options trees') :=
    hsame.granted.relinked (wellFiled_granted options trees) (wellFiled_granted options trees')
  obtain ⟨htext, hstate⟩ :=
    hresolved.render (wellFiled_resolved options trees) (wellFiled_resolved options trees')
  rw [convert_of_pass options h, convert_of_pass options h', htext]
  cases (resolved options trees').render.2 with
  | error e => exact rfl
  | ok text => exact ⟨rfl, hstate⟩

end Conversion
end Libdef
