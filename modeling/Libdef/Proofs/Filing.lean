import Libdef.Conversion.Basic
import Libdef.Proofs.Outcome

set_option autoImplicit false

namespace Libdef

def Numbered (issued : List Handle) : Prop :=
  ∀ (i : Nat) (h : Handle), issued[i]? = some h → h.index = i

/-- The contexts list the issued handles, each context those that name it, in the order of issue. -/
structure Contexts.Lists (cs : Contexts) (issued : List Handle) : Prop where
  filed_eq : ∀ x ∈ cs.list, x.filed = issued.filter fun h => h.context == x.name
  context_mem : ∀ h ∈ issued, h.context ∈ cs.names
  nodup : cs.names.Nodup
  root : cs.names.head? = some ModuleName.root

theorem Numbered.append {issued : List Handle} {h : Handle} (hn : Numbered issued)
    (hi : h.index = issued.length) : Numbered (issued ++ [h]) := by
  intro i g hg
  rcases Nat.lt_trichotomy i issued.length with hlt | heq | hgt
  · rw [List.getElem?_append_left hlt] at hg
    exact hn i g hg
  · subst heq
    simp only [List.getElem?_concat_length, Option.some.injEq] at hg
    rw [← hg, hi]
  · rw [List.getElem?_eq_none (by simp; omega)] at hg
    cases hg

theorem Numbered.ascending {issued : List Handle} (hn : Numbered issued) :
    issued.Pairwise fun g h => g.index < h.index := by
  rw [List.pairwise_iff_getElem]
  intro i j hi hj hij
  have h₁ := hn i issued[i] (List.getElem?_eq_getElem hi)
  have h₂ := hn j issued[j] (List.getElem?_eq_getElem hj)
  omega

theorem Numbered.nodup {issued : List Handle} (hn : Numbered issued) : issued.Nodup :=
  hn.ascending.imp fun hlt he => by rw [he] at hlt; omega

namespace Contexts

variable {cs : Contexts} {issued : List Handle}

theorem Lists.empty : ({} : Contexts).Lists [] where
  filed_eq := by simp
  context_mem := by simp
  nodup := by simp [names]
  root := rfl

theorem mem_names_request {name other : Text} :
    other ∈ (cs.request name).names ↔ other ∈ cs.names ∨ other = name := by
  rw [names_request]
  by_cases hc : name ∈ cs.names
  · simp only [List.contains_eq_mem, hc, decide_true, if_true]
    exact ⟨.inl, fun h => h.elim id fun he => he ▸ hc⟩
  · simp [hc]

theorem Lists.request (hl : cs.Lists issued) (name : Text) : (cs.request name).Lists issued := by
  by_cases hc : name ∈ cs.names
  · simpa [Contexts.request, hc] using hl
  · have hnames : (cs.request name).names = cs.names ++ [name] := by simp [names_request, hc]
    refine ⟨fun x hx => ?_, fun h hh => ?_, ?_, ?_⟩
    · have hx' : x ∈ cs.list ∨ x = { name := name } := by simpa [Contexts.request, hc] using hx
      rcases hx' with hx' | rfl
      · exact hl.filed_eq x hx'
      · refine (List.filter_eq_nil_iff.mpr fun h hh => ?_).symm
        simp only [beq_iff_eq]
        exact fun he => hc (he ▸ hl.context_mem h hh)
    · exact mem_names_request.mpr (.inl (hl.context_mem h hh))
    · rw [hnames, List.nodup_append]
      refine ⟨hl.nodup, by simp, fun a ha b hb hab => hc ?_⟩
      rw [← List.mem_singleton.mp hb, ← hab]
      exact ha
    · rw [hnames, List.head?_append, hl.root]
      rfl

theorem Lists.file (hl : cs.Lists issued) (h : Handle) :
    (cs.file h.context h).Lists (issued ++ [h]) := by
  have hr := hl.request h.context
  refine ⟨fun x hx => ?_, fun g hg => ?_, ?_, ?_⟩
  · obtain ⟨y, hy, rfl⟩ := List.mem_map.mp hx
    have hfiled := hr.filed_eq y hy
    by_cases hn : y.name = h.context
    · simp [hn, Context.file, hfiled]
    · simp [hn, hfiled, Ne.symm hn]
  · rw [names_file, mem_names_request]
    rcases List.mem_append.mp hg with hg | hg
    · exact .inl (hl.context_mem g hg)
    · exact .inr (by rw [List.mem_singleton.mp hg])
  · rw [names_file]
    exact hr.nodup
  · rw [names_file]
    exact hr.root

theorem Lists.context_bucket_eq (hl : cs.Lists issued) {x : Context} (hx : x ∈ cs.list)
    (b : Bucket) :
    x.bucket b = issued.filter fun h => h.context == x.name && h.bucket == b := by
  rw [Context.bucket, hl.filed_eq x hx, List.filter_filter]
  exact List.filter_congr fun h _ => Bool.and_comm _ _

theorem Lists.bucket_eq (hl : cs.Lists issued) (name : Text) (b : Bucket) :
    cs.bucket name b = issued.filter fun h => h.context == name && h.bucket == b := by
  simp only [bucket, get?]
  cases hx : cs.list.find? fun x => x.name == name with
  | none =>
    refine (List.filter_eq_nil_iff.mpr fun h hh => ?_).symm
    obtain ⟨x, hx', hn⟩ := List.mem_map.mp (hl.context_mem h hh)
    have := List.find?_eq_none.mp hx x hx'
    simp_all
  | some x =>
    have hname : x.name = name := by simpa using List.find?_some hx
    rw [← hname]
    exact hl.context_bucket_eq (List.mem_of_find?_eq_some hx) b

end Contexts

namespace Store

variable {store : Store}

def itemsAt (store : Store) (context : Text) (b : Bucket) : List Item :=
  (store.entries.toList.filter fun e => e.1.context == context && e.1.bucket == b).map Prod.snd

theorem mem_itemsAt {context : Text} {b : Bucket} {item : Item} :
    item ∈ store.itemsAt context b ↔
      ∃ h, (h, item) ∈ store.entries.toList ∧ h.context = context ∧ h.bucket = b := by
  simp [itemsAt]

theorem fetch_of_mem (hn : Numbered store.handles) {h : Handle} {item : Item}
    (hm : (h, item) ∈ store.entries.toList) : store.fetch h = .ok item := by
  obtain ⟨i, hi⟩ := List.mem_iff_getElem?.mp hm
  have hindex : h.index = i := hn i h (by simp [handles, hi])
  have hentry : store.entries[i]? = some (h, item) := by simpa using hi
  have hpos : ¬(i : Int) < 0 := by omega
  simp [fetch, item?, hindex, hpos, hentry]

theorem fetchAll_filter (hn : Numbered store.handles) (p : Handle → Bool) :
    store.fetchAll (store.handles.filter p) =
      .ok ((store.entries.toList.filter fun e => p e.1).map Prod.snd) := by
  rw [fetchAll, handles, List.filter_map, List.mapM_map]
  exact mapM_eq_ok fun e he => fetch_of_mem hn (List.mem_filter.mp he).1

theorem contains_iff (h : Handle) :
    store.contains h = true ↔ 0 ≤ h.index ∧ h.index < store.size := by
  simp only [contains, item?, size]
  by_cases hneg : h.index < 0
  · simp only [hneg, if_true, Option.isSome_none, Bool.false_eq_true, false_iff]
    omega
  · simp only [hneg, if_false, Option.isSome_map, Option.isSome_iff_ne_none, ne_eq,
      Array.getElem?_eq_none_iff]
    omega

theorem handles_modify (h : Handle) (change : Item → Item) :
    (store.modify h change).handles = store.handles := by
  simp only [modify]
  split
  · rfl
  · simp only [handles, Array.toList_modify]
    apply List.ext_getElem?
    intro i
    simp only [List.getElem?_map, List.getElem?_modify]
    split
    · cases store.entries.toList[i]? <;> rfl
    · simp

theorem mem_modify {h g : Handle} {change : Item → Item} {item : Item}
    (hm : (g, item) ∈ (store.modify h change).entries.toList) :
    ∃ old, (g, old) ∈ store.entries.toList ∧ (item = old ∨ item = change old) := by
  simp only [modify] at hm
  split at hm
  · exact ⟨item, hm, .inl rfl⟩
  · obtain ⟨i, hi⟩ := List.mem_iff_getElem?.mp hm
    simp only [Array.toList_modify, List.getElem?_modify] at hi
    split at hi
    · obtain ⟨e, he, heq⟩ := Option.map_eq_some_iff.mp hi
      obtain ⟨rfl, rfl⟩ := Prod.mk.inj heq
      exact ⟨e.2, List.mem_iff_getElem?.mpr ⟨i, he⟩, .inr rfl⟩
    · exact ⟨item, List.mem_iff_getElem?.mpr ⟨i, by simpa using hi⟩, .inl rfl⟩

end Store

namespace Conversion

structure WellFiled (c : Conversion) : Prop where
  numbered : Numbered c.store.handles
  lists : c.contexts.Lists c.store.handles

variable {c d : Conversion}

theorem WellFiled.start (options : Options) : ({ options := options } : Conversion).WellFiled :=
  ⟨fun i h hi => by simp [Store.handles] at hi, .empty⟩

theorem WellFiled.congr (h : c.WellFiled) (hc : d.contexts = c.contexts)
    (hs : d.store.handles = c.store.handles) : d.WellFiled :=
  ⟨hs ▸ h.numbered, hs ▸ hc ▸ h.lists⟩

theorem WellFiled.insert (h : c.WellFiled) (item : Item) (context : Text) (bucket : Bucket) :
    (c.insert item context bucket).1.WellFiled := by
  refine ⟨?_, ?_⟩
  · simp only [Conversion.insert, Store.handles_insert]
    exact h.numbered.append (by simp [Store.nextHandle, Store.size, Store.handles])
  · simp only [Conversion.insert, Store.handles_insert]
    exact h.lists.file (c.store.nextHandle item context bucket)

theorem WellFiled.requestContext (h : c.WellFiled) (name : Text) :
    (c.requestContext name).WellFiled :=
  ⟨h.numbered, h.lists.request name⟩

theorem WellFiled.pushNamespace (h : c.WellFiled) (name : Text) :
    (c.pushNamespace name).WellFiled := by
  refine h.congr ?_ ?_ <;> simp only [Conversion.pushNamespace] <;> split <;> rfl

theorem items_eq (h : c.WellFiled) (context : Text) (b : Bucket) :
    c.items context b = .ok (c.store.itemsAt context b) := by
  rw [items, h.lists.bucket_eq, Store.fetchAll_filter h.numbered]
  rfl

end Conversion
end Libdef
