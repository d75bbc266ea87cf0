import Libdef.Conversion.Output
import Libdef.Proofs.Filing
import Libdef.Proofs.Printing

set_option autoImplicit false

namespace Libdef

variable {Q : Fault → Prop}

/-! A new name makes no item less fit. -/

theorem Node.printable_rename (n : Node) (name : Option Text) :
    (n.rename name).printable = n.printable := by
  rw [Node.printable_eq, Node.printable_eq]
  cases n with
  | mk s => rfl

theorem Item.Fits.rename {item : Item} {b : Bucket} (h : item.Fits Q b) (name : Text) :
    (item.rename name).Fits Q b := by
  cases item with
  | declaration node =>
    cases b <;>
      simp_all only [Item.Fits, Item.rename, asDeclaration, asVariable, isDefault, Ends,
        Node.printable_rename]
  | «variable» v => cases b <;> exact h
  | «export» e => cases b <;> exact h

def Store.moduleAt (store : Store) (context : Text) : Module where
  name := context
  functions := store.itemsAt context .functions
  classes := store.itemsAt context .classes
  types := store.itemsAt context .types
  interfaces := store.itemsAt context .interfaces
  exports := store.itemsAt context .exports

theorem Store.mem_items_moduleAt {store : Store} {context : Text} {b : Bucket} {item : Item} :
    item ∈ (store.moduleAt context).items b ↔ b ≠ .variables ∧ item ∈ store.itemsAt context b := by
  cases b <;> simp [moduleAt, Module.items]

namespace Conversion

variable {c d : Conversion} {I : Conversion → Prop}

/-- The state left behind is in `I`, and a failure is one of `Q`. -/
structure Step.Keeps (I : Conversion → Prop) (Q : Fault → Prop) (s : Step) : Prop where
  state : I s.state
  ends : Ends (fun _ => True) Q s.result

theorem Step.Keeps.andThen {s : Step} {next : Conversion → Step} (hs : s.Keeps I Q)
    (hn : (next s.state).Keeps I Q) : (s.andThen next).Keeps I Q := by
  cases hr : s.result with
  | error e => simpa [Step.andThen, hr] using hs
  | ok u => simpa [Step.andThen, hr] using hn

theorem Step.result_of_andThen {s : Step} {next : Conversion → Step}
    (h : (s.andThen next).result = .ok ()) : s.result = .ok () := by
  cases hr : s.result with
  | error e =>
    simp only [Step.andThen, hr] at h
    cases h
  | ok u => rfl

theorem forEach_keeps {α : Type} {step : α → Conversion → Step} {l : List α}
    (hstep : ∀ a ∈ l, ∀ d, I d → (step a d).Keeps I Q) (hc : I c) :
    (forEach step l c).Keeps I Q := by
  induction l generalizing c with
  | nil => exact ⟨hc, trivial⟩
  | cons a l ih =>
    have ha := hstep a (by simp) c hc
    exact ha.andThen (ih (fun x hx => hstep x (by simp [hx])) ha.state)

def Fits (Q : Fault → Prop) (c : Conversion) : Prop :=
  ∀ h item, (h, item) ∈ c.store.entries.toList → item.Fits Q h.bucket

theorem Fits.of_mem_itemsAt (hf : c.Fits Q) {context : Text} {b : Bucket} {item : Item}
    (hi : item ∈ c.store.itemsAt context b) : item.Fits Q b := by
  obtain ⟨h, hm, -, rfl⟩ := Store.mem_itemsAt.mp hi
  exact hf h item hm

/-- Where malformed values and misplaced items are let pass, every item fits. -/
theorem fits_of_tolerant (c : Conversion) (hmalformed : ∀ e, e.isMalformed = true → Q e)
    (hmismatch : Q .itemMismatch) : c.Fits Q := by
  intro h item _
  have hvariable : Ends (fun _ => True) Q item.asVariable := by
    cases item with
    | «variable» v => trivial
    | _ => exact hmismatch
  have hdefault : Ends (fun _ => True) Q item.isDefault := by
    cases item with
    | «variable» v => exact hmismatch
    | _ => trivial
  have hdeclaration : Ends (fun n => Allows Q n.printable) Q item.asDeclaration := by
    cases item with
    | declaration node => exact .inl hmalformed
    | _ => exact hmismatch
  cases h.bucket with
  | «variables» => exact hvariable
  | exports => exact hdefault
  | _ => exact hdeclaration

/-- Options, namespaces, contexts and issued handles are the same. -/
structure SameFiling (c d : Conversion) : Prop where
  options : d.options = c.options
  namespaces : d.namespaces = c.namespaces
  contexts : d.contexts = c.contexts
  handles : d.store.handles = c.store.handles

theorem SameFiling.refl (c : Conversion) : SameFiling c c := ⟨rfl, rfl, rfl, rfl⟩

theorem SameFiling.trans {e : Conversion} (h : SameFiling c d) (h' : SameFiling d e) :
    SameFiling c e where
  options := h'.options.trans h.options
  namespaces := h'.namespaces.trans h.namespaces
  contexts := h'.contexts.trans h.contexts
  handles := h'.handles.trans h.handles

theorem SameFiling.wellFiled (hs : SameFiling c d) (h : c.WellFiled) : d.WellFiled :=
  h.congr hs.contexts hs.handles

theorem linkContext_endsIn (h : c.WellFiled) (hf : c.Fits Q) (context : Text) :
    (c.linkContext context).EndsIn Q := by
  rw [linkContext, items_eq h]
  refine Traced.endsIn_lift_bind (P := fun items => ∀ item ∈ items, item.Fits Q .variables)
    (fun item hi => hf.of_mem_itemsAt hi) fun items hitems => ?_
  refine Traced.endsIn_forM fun item hi => ?_
  exact Traced.endsIn_lift_bind (hitems item hi) fun v _ =>
    Traced.endsIn_forM fun request _ => Traced.endsIn_tell request

theorem grant_frame (c : Conversion) (request : Request) :
    SameFiling c (c.grant request) ∧ (c.grant request).store = c.store := by
  cases request <;> exact ⟨⟨rfl, rfl, rfl, rfl⟩, rfl⟩

theorem grants_frame (requests : List Request) (c : Conversion) :
    SameFiling c (requests.foldl grant c) ∧ (requests.foldl grant c).store = c.store := by
  induction requests generalizing c with
  | nil => exact ⟨.refl c, rfl⟩
  | cons request rest ih =>
    obtain ⟨hs, hstore⟩ := c.grant_frame request
    obtain ⟨hs', hstore'⟩ := ih (c.grant request)
    exact ⟨hs.trans hs', hstore'.trans hstore⟩

theorem findVariable_ends (h : c.WellFiled) (hf : c.Fits Q) (context : Text)
    (name : Option Text) :
    Ends (fun o => ∀ item ∈ o, item.Fits Q .variables) Q (c.findVariable context name) := by
  rw [findVariable, items_eq h]
  intro item hi
  exact hf.of_mem_itemsAt (List.mem_filter.mp (List.mem_of_getLast? hi)).1

theorem findExportTarget_ends (h : c.WellFiled) (hf : c.Fits Q) (context : Text)
    (name : Option Text) :
    Ends (fun o => ∀ item ∈ o, item.Fits Q .variables) Q (c.findExportTarget context name) := by
  refine (findVariable_ends h hf context name).bind fun o ho => ?_
  cases o with
  | some item => exact ho
  | none =>
    dsimp only
    split
    · simp [Ends, Pure.pure, Except.pure]
    · exact findVariable_ends h hf _ _

theorem exportName_ends (h : c.WellFiled) (hf : c.Fits Q) (context : Text)
    (name : Option Text) : Ends (fun _ => True) Q (c.exportName context name) := by
  refine (findExportTarget_ends h hf context name).bind fun o ho => ?_
  cases o with
  | none => trivial
  | some item => exact Ends.bind (ho item rfl) fun _ _ => trivial

theorem Fits.modify (hf : c.Fits Q) (h : Handle) (name : Text) :
    ({ c with store := c.store.modify h (·.rename name) } : Conversion).Fits Q := by
  intro g item hm
  obtain ⟨old, hold, rfl | rfl⟩ := Store.mem_modify hm
  · exact hf g item hold
  · exact (hf g old hold).rename name

def SameImports (Q : Fault → Prop) (c d : Conversion) : Prop :=
  SameFiling c d ∧ d.imports = c.imports ∧ d.Fits Q

theorem resolveExport_keeps (h : c.WellFiled) (hd : SameImports Q c d) (context : Text)
    {g : Handle} (hg : g ∈ c.store.handles) :
    (resolveExport context g d).Keeps (SameImports Q c) Q := by
  obtain ⟨hs, hi, hf⟩ := hd
  have hw := hs.wellFiled h
  rw [← hs.handles] at hg
  obtain ⟨⟨_, item⟩, hm, rfl⟩ := List.mem_map.mp hg
  simp only [resolveExport, Store.fetch_of_mem hw.numbered hm]
  have hname := exportName_ends hw hf context item.name
  cases hr : d.exportName context item.name with
  | error e =>
    rw [hr] at hname
    exact ⟨⟨hs, hi, hf⟩, hname⟩
  | ok o =>
    cases o with
    -- Only a report is made.
    | none => exact ⟨⟨⟨hs.options, hs.namespaces, hs.contexts, hs.handles⟩, hi, hf⟩, trivial⟩
    | some value =>
      refine ⟨⟨⟨hs.options, hs.namespaces, hs.contexts, ?_⟩, hi, hf.modify _ _⟩, trivial⟩
      exact (Store.handles_modify _ _).trans hs.handles

theorem resolveContextExports_keeps (h : c.WellFiled) (hd : SameImports Q c d)
    (context : Text) : (resolveContextExports context d).Keeps (SameImports Q c) Q := by
  have hw := hd.1.wellFiled h
  have hbucket := hw.lists.bucket_eq context .exports
  have hall := Store.fetchAll_filter hw.numbered
    fun g => g.context == context && g.bucket == .exports
  rw [← hbucket] at hall
  simp only [resolveContextExports, hall]
  refine forEach_keeps (fun g hg e he => ?_) hd
  refine resolveExport_keeps h he context ?_
  rw [hbucket, hd.1.handles] at hg
  exact (List.mem_filter.mp hg).1

theorem resolveExports_keeps (h : c.WellFiled) (hf : c.Fits Q) :
    c.resolveExports.Keeps (SameImports Q c) Q :=
  forEach_keeps (fun context _ _ hd => resolveContextExports_keeps h hd context)
    ⟨.refl c, rfl, hf⟩

theorem resolve_keeps (h : c.WellFiled) (hf : c.Fits Q) :
    c.resolve.Keeps (SameImports Q (c.link.log.foldl grant c)) Q := by
  obtain ⟨hs, hstore⟩ := c.grants_frame c.link.log
  have hf' : (c.link.log.foldl grant c).Fits Q := by
    intro g item hm
    rw [hstore] at hm
    exact hf g item hm
  refine Step.Keeps.andThen ⟨⟨.refl _, rfl, hf'⟩, ?_⟩ (resolveExports_keeps (hs.wellFiled h) hf')
  exact Traced.endsIn_forM fun context _ => linkContext_endsIn h hf context

theorem module_eq (h : c.WellFiled) {x : Context} (hx : x ∈ c.contexts.list) :
    c.module x = .ok (c.store.moduleAt x.name) := by
  simp only [module, h.lists.context_bucket_eq hx, Store.fetchAll_filter h.numbered]
  rfl

theorem modules_eq (h : c.WellFiled) :
    c.modules = .ok (c.contexts.names.map c.store.moduleAt) := by
  rw [Contexts.names, List.map_map]
  exact mapM_eq_ok fun x hx => module_eq h hx

theorem render_ends (h : c.WellFiled) (hf : c.Fits Q) :
    Ends (fun _ => True) Q c.render.2 := by
  have hsheet : c.fileSheet.EndsIn Q := by
    rw [fileSheet, modules_eq h]
    refine Traced.endsIn_lift_bind
      (P := fun ms => ∀ m ∈ ms, ∀ b, ∀ item ∈ m.items b, item.Fits Q b) ?_
      fun ms hms => Sheet.file_endsIn hms
    intro m hm b item hi
    obtain ⟨name, -, rfl⟩ := List.mem_map.mp hm
    exact hf.of_mem_itemsAt (Store.mem_items_moduleAt.mp hi).2
  exact hsheet.map fun _ _ => trivial

end Conversion
end Libdef
