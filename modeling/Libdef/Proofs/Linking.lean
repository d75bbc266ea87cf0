import Libdef.Proofs.Imports
import Libdef.Proofs.Resolution

set_option autoImplicit false

namespace Libdef

theorem ModuleName.ofNamespace_inj {a b : Text} (h : ofNamespace a = ofNamespace b) : a = b := by
  simpa [ofNamespace] using h

namespace Linking

variable {isNamespace : Text → Bool} {context : Text} {v : Variable}

theorem name_mem_ofVariable {n m : Text} :
    .name n m ∈ ofVariable isNamespace context v ↔
      isNamespace v.qualifier = true ∧ n = v.value ∧ m = ModuleName.ofNamespace v.qualifier := by
  simp only [ofVariable]
  repeat' split
  all_goals simp_all

theorem binding_mem_ofVariable {n m : Text} :
    .binding n m ∈ ofVariable isNamespace context v ↔
      isNamespace v.qualifier = false ∧ isNamespace v.value = true ∧ n = v.name ∧
        m = ModuleName.ofNamespace v.value := by
  simp only [ofVariable]
  repeat' split
  all_goals simp_all

/-! What the variables that stand in some contexts ask for, all taken together. -/

section Standing

variable {stands : Text → Variable → Prop}

theorem exists_name_mem {n ns : Text} :
    (∃ context v, stands context v ∧
      .name n (ModuleName.ofNamespace ns) ∈ ofVariable isNamespace context v) ↔
      isNamespace ns = true ∧
        ∃ v, (∃ context, stands context v) ∧ v.qualifier = ns ∧ v.value = n := by
  simp only [name_mem_ofVariable]
  constructor
  · rintro ⟨context, v, hv, hq, rfl, hm⟩
    cases ModuleName.ofNamespace_inj hm
    exact ⟨hq, v, ⟨context, hv⟩, rfl, rfl⟩
  · rintro ⟨hq, v, ⟨context, hv⟩, rfl, rfl⟩
    exact ⟨context, v, hv, hq, rfl, rfl⟩

theorem exists_binding_mem {n ns : Text} :
    (∃ context v, stands context v ∧
      .binding n (ModuleName.ofNamespace ns) ∈ ofVariable isNamespace context v) ↔
      isNamespace ns = true ∧ ∃ v, (∃ context, stands context v) ∧
        isNamespace v.qualifier = false ∧ v.value = ns ∧ v.name = n := by
  simp only [binding_mem_ofVariable]
  constructor
  · rintro ⟨context, v, hv, hq, hns, rfl, hm⟩
    cases ModuleName.ofNamespace_inj hm
    exact ⟨hns, v, ⟨context, hv⟩, hq, rfl, rfl⟩
  · rintro ⟨hns, v, ⟨context, hv⟩, hq, rfl, rfl⟩
    exact ⟨context, v, hv, hq, hns, rfl, rfl⟩

end Standing

theorem tellAll_eq (requests : List Request) : tellAll requests = ⟨requests, .ok ()⟩ := by
  induction requests with
  | nil => rfl
  | cons request rest ih =>
    have hrest : rest.forM Traced.tell = ⟨rest, .ok ()⟩ := ih
    simp only [tellAll, List.forM_eq_forM, List.forM_cons] at hrest ⊢
    rw [hrest]
    rfl

end Linking

namespace Conversion

variable {c : Conversion}

def HasVariable (c : Conversion) (v : Variable) : Prop :=
  ∃ context, .variable v ∈ c.store.itemsAt context .variables

/-- The variables that the contexts hold, by the name of the context. -/
def Holds (c : Conversion) (held : Text → List Variable) : Prop :=
  ∀ context ∈ c.contexts.names,
    c.items context .variables = .ok ((held context).map .variable)

def asked (c : Conversion) (held : Text → List Variable) : List Request :=
  c.contexts.names.flatMap fun context =>
    (held context).flatMap (Linking.ofVariable c.isNamespace context)

theorem linkContext_of_items {context : Text} {vs : List Variable}
    (h : c.items context .variables = .ok (vs.map .variable)) :
    c.linkContext context =
      ⟨vs.flatMap (Linking.ofVariable c.isNamespace context), .ok ()⟩ := by
  have hlift (v : Variable) (f : Variable → Linking) :
      Traced.lift (Item.variable v).asVariable >>= f = f v := Traced.bind_of_ok rfl f
  rw [linkContext, h, Traced.bind_of_ok (Traced.result_lift _)]
  simp only [List.forM_eq_forM, List.forM_map, hlift, Linking.tellAll_eq]
  have hall : ∀ v ∈ vs, (⟨Linking.ofVariable c.isNamespace context v, .ok ()⟩ : Linking).result =
      .ok () := fun _ _ => rfl
  refine Traced.ext ?_ (Traced.result_forM_eq_ok_iff.mpr hall)
  simpa using Traced.log_forM_of_ok hall

theorem link_of_holds {held : Text → List Variable} (h : c.Holds held) :
    c.link = ⟨c.asked held, .ok ()⟩ := by
  have hall : ∀ context ∈ c.contexts.names, (c.linkContext context).result = .ok () :=
    fun context hc => by rw [linkContext_of_items (h context hc)]
  refine Traced.ext ?_ (Traced.result_forM_eq_ok_iff.mpr hall)
  rw [link, Traced.log_forM_of_ok hall]
  exact List.flatMap_congr fun context hc => by rw [linkContext_of_items (h context hc)]

theorem mem_log_linkContext (h : c.WellFiled) {context : Text}
    (hok : (c.linkContext context).result = .ok ()) {request : Request} :
    request ∈ (c.linkContext context).log ↔
      ∃ v, .variable v ∈ c.store.itemsAt context .variables ∧
        request ∈ Linking.ofVariable c.isNamespace context v := by
  rw [linkContext, items_eq h] at hok ⊢
  obtain ⟨items, hitems, heq⟩ := Traced.lift_bind_of_ok hok
  cases hitems
  rw [heq] at hok ⊢
  have hall := Traced.result_forM_eq_ok_iff.mp hok
  rw [Traced.log_forM_of_ok hall, List.mem_flatMap]
  constructor
  · rintro ⟨item, hi, hr⟩
    obtain ⟨v, hv, hlog⟩ := Traced.lift_bind_of_ok (hall item hi)
    rw [hlog, Linking.tellAll_eq] at hr
    cases item with
    | «variable» v' =>
      cases hv
      exact ⟨v, hi, hr⟩
    | _ => cases hv
  · rintro ⟨v, hv, hr⟩
    refine ⟨_, hv, ?_⟩
    obtain ⟨v', hv', hlog⟩ := Traced.lift_bind_of_ok (hall _ hv)
    cases hv'
    rw [hlog, Linking.tellAll_eq]
    exact hr

theorem mem_log_link (h : c.WellFiled) (hok : c.link.result = .ok ()) {request : Request} :
    request ∈ c.link.log ↔ ∃ context v, .variable v ∈ c.store.itemsAt context .variables ∧
      request ∈ Linking.ofVariable c.isNamespace context v := by
  have hall := Traced.result_forM_eq_ok_iff.mp hok
  rw [link, Traced.log_forM_of_ok hall, List.mem_flatMap]
  constructor
  · rintro ⟨context, hc, hr⟩
    obtain ⟨v, hv, hr⟩ := (mem_log_linkContext h (hall context hc)).mp hr
    exact ⟨context, v, hv, hr⟩
  · rintro ⟨context, v, hv, hr⟩
    obtain ⟨g, hg, rfl, -⟩ := Store.mem_itemsAt.mp hv
    -- Linking goes through the listed contexts only, and that of a stored variable is listed.
    have hc := h.lists.context_mem g (List.mem_map.mpr ⟨_, hg, rfl⟩)
    exact ⟨g.context, hc, (mem_log_linkContext h (hall _ hc)).mpr ⟨v, hv, hr⟩⟩

theorem name_mem_link (h : c.WellFiled) (hok : c.link.result = .ok ()) {n ns : Text} :
    .name n (ModuleName.ofNamespace ns) ∈ c.link.log ↔
      c.isNamespace ns = true ∧ ∃ v, c.HasVariable v ∧ v.qualifier = ns ∧ v.value = n :=
  (mem_log_link h hok).trans Linking.exists_name_mem

theorem binding_mem_link (h : c.WellFiled) (hok : c.link.result = .ok ()) {n ns : Text} :
    .binding n (ModuleName.ofNamespace ns) ∈ c.link.log ↔
      c.isNamespace ns = true ∧
        ∃ v, c.HasVariable v ∧ c.isNamespace v.qualifier = false ∧ v.value = ns ∧ v.name = n :=
  (mem_log_link h hok).trans Linking.exists_binding_mem

theorem module_of_mem_link (h : c.WellFiled) (hok : c.link.result = .ok ()) {request : Request}
    (hr : request ∈ c.link.log) {m : Text} (hm : request.module? = some m) :
    ∃ ns, m = ModuleName.ofNamespace ns := by
  obtain ⟨context, v, -, hr⟩ := (mem_log_link h hok).mp hr
  cases request with
  | name n m' =>
    cases hm
    exact ⟨_, (Linking.name_mem_ofVariable.mp hr).2.2⟩
  | binding n m' =>
    cases hm
    exact ⟨_, (Linking.binding_mem_ofVariable.mp hr).2.2.2⟩
  | report d => cases hm

end Conversion
end Libdef
