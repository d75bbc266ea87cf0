import Libdef.Proofs.Resolution
import Libdef.Proofs.Sites

set_option autoImplicit false

namespace Libdef

variable {Q : Fault → Prop}

namespace Conversion

variable {c : Conversion} {entries : List Entry}

theorem WellFiled.enter (h : c.WellFiled) (entry : Entry) : (c.enter entry).WellFiled := by
  cases entry with
  | item item context b => exact h.insert item context b
  | knownNamespace name => exact h.pushNamespace name
  | knownContext name => exact h.requestContext name
  | report d => exact h.congr rfl rfl

theorem WellFiled.enterAll (h : c.WellFiled) (entries : List Entry) :
    (c.enterAll entries).WellFiled := by
  induction entries generalizing c with
  | nil => exact h
  | cons entry rest ih => exact ih (h.enter entry)

theorem store_pushNamespace (c : Conversion) (name : Text) :
    (c.pushNamespace name).store = c.store := by
  simp only [pushNamespace]
  split <;> rfl

theorem mem_itemsAt_enter {entry : Entry} {item : Item} {context : Text} {b : Bucket} :
    item ∈ (c.enter entry).store.itemsAt context b ↔
      item ∈ c.store.itemsAt context b ∨ .item item context b = entry := by
  cases entry with
  | item item' context' b' =>
    simp only [enter, insert, Store.mem_itemsAt, Store.insert, Array.toList_push, List.mem_append,
      List.mem_singleton, Prod.mk.injEq, Entry.item.injEq]
    constructor
    · rintro ⟨h, hm | ⟨rfl, rfl⟩, hc, hb⟩
      · exact .inl ⟨h, hm, hc, hb⟩
      · exact .inr ⟨rfl, hc.symm, hb.symm⟩
    · rintro (⟨h, hm, hc, hb⟩ | ⟨rfl, rfl, rfl⟩)
      · exact ⟨h, .inl hm, hc, hb⟩
      · exact ⟨_, .inr ⟨rfl, rfl⟩, rfl, rfl⟩
  | knownNamespace name => simp [enter, store_pushNamespace]
  | knownContext name => simp [enter, requestContext]
  | report d => simp [enter, report]

theorem mem_itemsAt_enterAll {item : Item} {context : Text} {b : Bucket} :
    item ∈ (c.enterAll entries).store.itemsAt context b ↔
      item ∈ c.store.itemsAt context b ∨ .item item context b ∈ entries := by
  induction entries generalizing c with
  | nil => simp [enterAll]
  | cons entry rest ih =>
    rw [enterAll, List.foldl_cons, ← enterAll, ih, mem_itemsAt_enter, List.mem_cons, or_assoc]

theorem Fits.enterAll (hf : c.Fits Q)
    (he : ∀ item context b, .item item context b ∈ entries → item.Fits Q b) :
    (c.enterAll entries).Fits Q := by
  intro h item hm
  have hi : item ∈ (c.enterAll entries).store.itemsAt h.context h.bucket :=
    Store.mem_itemsAt.mpr ⟨h, hm, rfl, rfl⟩
  rcases mem_itemsAt_enterAll.mp hi with hi | hi
  · exact hf.of_mem_itemsAt hi
  · exact he item _ _ hi

theorem mem_namespaces_enter {entry : Entry} {name : Text} :
    name ∈ (c.enter entry).namespaces ↔ name ∈ c.namespaces ∨ .knownNamespace name = entry := by
  cases entry with
  | knownNamespace name' =>
    simp only [enter, pushNamespace, isNamespace, Entry.knownNamespace.injEq]
    by_cases hn : name' ∈ c.namespaces
    · simp only [List.contains_eq_mem, hn, decide_true, if_true]
      exact ⟨.inl, fun h => h.elim id fun he => he ▸ hn⟩
    · simp [hn]
  | _ => simp [enter, insert, requestContext, report]

theorem mem_namespaces_enterAll {name : Text} :
    name ∈ (c.enterAll entries).namespaces ↔
      name ∈ c.namespaces ∨ .knownNamespace name ∈ entries := by
  induction entries generalizing c with
  | nil => simp [enterAll]
  | cons entry rest ih =>
    rw [enterAll, List.foldl_cons, ← enterAll, ih, mem_namespaces_enter, List.mem_cons, or_assoc]

theorem enterAll_frame (c : Conversion) (entries : List Entry) :
    (c.enterAll entries).options = c.options ∧ (c.enterAll entries).imports = c.imports := by
  induction entries generalizing c with
  | nil => exact ⟨rfl, rfl⟩
  | cons entry rest ih =>
    have hentry : (c.enter entry).options = c.options ∧ (c.enter entry).imports = c.imports := by
      cases entry with
      | knownNamespace name =>
        simp only [enter, pushNamespace]
        split <;> exact ⟨rfl, rfl⟩
      | _ => exact ⟨rfl, rfl⟩
    rw [enterAll, List.foldl_cons, ← enterAll]
    exact ⟨(ih _).1.trans hentry.1, (ih _).2.trans hentry.2⟩

variable {trees : List Json}

def collected (options : Options) (trees : List Json) : Conversion :=
  ({ options := options } : Conversion).enterAll ((sitesOf trees).forM Site.filing).log

theorem wellFiled_collected (options : Options) (trees : List Json) :
    (collected options trees).WellFiled :=
  (WellFiled.start options).enterAll _

theorem mem_itemsAt_collected (options : Options) {item : Item} {context : Text} {b : Bucket} :
    item ∈ (collected options trees).store.itemsAt context b ↔
      .item item context b ∈ ((sitesOf trees).forM Site.filing).log := by
  rw [collected, mem_itemsAt_enterAll]
  simp [Store.itemsAt]

theorem sitesOf_sound_of_allows (h : ∀ tree ∈ trees, Allows Q tree.wellTyped) :
    ∀ site ∈ sitesOf trees, site.Sound Q := by
  intro site hs
  obtain ⟨tree, ht, hs⟩ := List.mem_flatMap.mp hs
  exact (tree.tour_sound.1 (h tree ht)).block ModuleName.root site hs

/-- What is filed of trees of the right sort fits, as far as `Q` does not let other trees pass. -/
theorem fits_collected_of_allows (options : Options)
    (h : ∀ tree ∈ trees, Allows Q tree.wellTyped) : (collected options trees).Fits Q := by
  have hstart : ({ options := options } : Conversion).Fits Q := by
    intro g item hm
    simp at hm
  apply hstart.enterAll
  intro item context b hm
  obtain ⟨site, hs, hm⟩ := Traced.mem_log_forM hm
  exact (sitesOf_sound_of_allows h site hs).settled.items item context b hm

theorem convert_of_error (options : Options) {e : Fault}
    (h : ((sitesOf trees).forM Site.filing).result = .error e) :
    convert options trees = .error e := by
  simp only [convert, collectTrees_eq, take, Step.andThen, h]
  rfl

theorem convert_of_ok (options : Options)
    (h : ((sitesOf trees).forM Site.filing).result = .ok ()) :
    convert options trees = (do
      let linked := (collected options trees).resolve
      linked.result
      let text ← linked.state.render.2
      return (linked.state.render.1, text)) := by
  simp only [convert, collectTrees_eq, take, Step.andThen, h]
  rfl

end Conversion
end Libdef
