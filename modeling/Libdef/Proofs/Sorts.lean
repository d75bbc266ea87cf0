import Libdef.Proofs.Content

set_option autoImplicit false

namespace Libdef

/-- The sort of item that a bucket is for. -/
def Item.BelongsTo (b : Bucket) : Item → Prop
  | .declaration node => b.kind? = some node.head.kind
  | .variable _ => b = .variables
  | .export _ => b = .exports

def Filing.Sorts (filing : Filing) : Prop :=
  ∀ item context b, .item item context b ∈ filing.log → item.BelongsTo b

namespace Filing

theorem sorts_report (d : Diagnostic) : Sorts (Traced.tell (.report d)) := by
  intro item context b hm
  simp at hm

theorem sorts_item {item : Item} {b : Bucket} (h : item.BelongsTo b) (context : Text) :
    Sorts (Traced.tell (.item item context b)) := by
  intro item' context' b' hm
  simp only [Traced.log_tell, List.mem_singleton, Entry.item.injEq] at hm
  obtain ⟨rfl, rfl, rfl⟩ := hm
  exact h

theorem sorts_fail (e : Fault) : Sorts (Traced.fail e) := by
  intro item context b hm
  simp at hm

theorem sorts_lift_bind {α : Type} {r : Except Fault α} {f : α → Filing}
    (h : ∀ a, r = .ok a → Sorts (f a)) : Sorts (Traced.lift r >>= f) := by
  cases r with
  | error e =>
    rw [Traced.bind_of_error (Traced.result_lift _)]
    exact sorts_fail e
  | ok a =>
    rw [Traced.bind_of_ok (Traced.result_lift _)]
    exact fun item context b hm => h a rfl item context b (by simpa using hm)

theorem declaration_sorts {j : Json} {bucket : Bucket}
    (h : declarationBucket? (j.get "kind") = some bucket) (context : Text) :
    Sorts (declaration j bucket context) := by
  refine sorts_lift_bind fun node hnode => sorts_item ?_ context
  have hread := Node.ofJson_head h
  simp only [Node.declarationOfJson] at hnode
  cases hr : Node.ofJson j with
  | error e =>
    rw [hr] at hnode
    cases hnode
  | ok o =>
    rw [hr] at hread hnode
    obtain ⟨n, rfl, hkind, -⟩ := hread
    simp only [Bind.bind, Except.bind] at hnode
    split at hnode
    · cases hnode
    · cases hnode
      exact hkind

theorem variableDeclaration_sorts (context : Text) (j : Json) :
    Sorts (variableDeclaration context j) := by
  simp only [variableDeclaration]
  split
  · exact sorts_fail _
  refine sorts_lift_bind fun name _ => sorts_lift_bind fun _ _ => sorts_lift_bind fun parts _ => ?_
  cases parts with
  | none => exact sorts_report _
  | some parts =>
    dsimp only
    split
    · exact sorts_report _
    · refine sorts_item ?_ context
      rfl

theorem exportAssignment_sorts (j : Json) (context : Text) :
    Sorts (exportAssignment j context) := by
  refine sorts_lift_bind fun name _ => ?_
  split
  · exact sorts_report _
  · refine sorts_item ?_ context
    rfl

end Filing

theorem Site.Sound.sorts {Q : Fault → Prop} {site : Site} (h : site.Sound Q) :
    site.filing.Sorts := by
  cases site with
  | declaration j bucket context => exact Filing.declaration_sorts h.2 context
  | declarator j context => exact Filing.variableDeclaration_sorts context j
  | exportAssignment j context => exact Filing.exportAssignment_sorts j context
  | other j context => exact Filing.sorts_lift_bind fun _ _ => Filing.sorts_report _
  | unnamedModule context => exact Filing.sorts_report _
  | knownNamespace name | knownContext name =>
    intro item context b hm
    simp [filing] at hm
  | unlisted j => exact Filing.sorts_fail _
  | malformed fault => exact Filing.sorts_fail fault

theorem Filing.sorts_forM {sites : List Site} {Q : Fault → Prop}
    (h : ∀ site ∈ sites, site.Sound Q) : Sorts (sites.forM Site.filing) := by
  intro item context b hm
  obtain ⟨site, hs, hm⟩ := Traced.mem_log_forM hm
  exact (h site hs).sorts item context b hm

namespace Json

/-- Malformed values are let pass, so that the sites of every value are sound. -/
theorem tour_tolerant (j : Json) : j.tour.SoundNode fun e => e.isMalformed = true :=
  j.tour_sound.1 (.inl fun _ he => he)

theorem block_sorts (j : Json) (context : Text) :
    Filing.Sorts ((j.tour.block context).forM Site.filing) :=
  Filing.sorts_forM (j.tour_tolerant.block context)

theorem statement_sorts (j : Json) (context : Text) :
    Filing.Sorts ((j.tour.statement context).forM Site.filing) :=
  Filing.sorts_forM (j.tour_tolerant.statement context)

end Json

namespace Conversion

variable {c : Conversion}

def Sorted (c : Conversion) : Prop := ∀ e ∈ c.store.entries.toList, e.2.BelongsTo e.1.bucket

theorem Sorted.of_mem_itemsAt (h : c.Sorted) {context : Text} {b : Bucket} {item : Item}
    (hi : item ∈ c.store.itemsAt context b) : item.BelongsTo b := by
  obtain ⟨g, hm, -, rfl⟩ := Store.mem_itemsAt.mp hi
  exact h _ hm

theorem Sorted.enterAll {filing : Filing} (h : c.Sorted) (hf : filing.Sorts) :
    (c.enterAll filing.log).Sorted := by
  rintro ⟨g, item⟩ hm
  have hi : item ∈ (c.enterAll filing.log).store.itemsAt g.context g.bucket :=
    Store.mem_itemsAt.mpr ⟨g, hm, rfl, rfl⟩
  rcases mem_itemsAt_enterAll.mp hi with hi | hi
  · exact h.of_mem_itemsAt hi
  · exact hf item _ _ hi

/-- The conversions that collection leads to: trees and statements are collected in any contexts,
whether or not they go through. Linking the variables in between changes nothing of what is
collected. -/
inductive Gathered : Conversion → Prop
  | start (options : Options) : Gathered { options := options }
  | tree {c : Conversion} (tree : Json) (context : Text) (h : Gathered c) :
    Gathered (c.collectTree tree context).state
  | statement {c : Conversion} (statement : Json) (context : Text) (h : Gathered c) :
    Gathered (c.collectStatement statement context).state
  | linked {c : Conversion} (h : Gathered c) : Gathered c.resolveVariables.state

namespace Gathered

theorem wellFiled (h : Gathered c) : c.WellFiled := by
  induction h with
  | start options => exact .start options
  | tree tree context _ ih =>
    rw [collectTree_eq]
    exact ih.enterAll _
  | statement statement context _ ih =>
    rw [collectStatement_eq]
    exact ih.enterAll _
  | linked _ ih => exact (grants_frame _ _).1.wellFiled ih

theorem sorted (h : Gathered c) : c.Sorted := by
  induction h with
  | start options =>
    intro e he
    simp at he
  | tree tree context _ ih =>
    rw [collectTree_eq]
    exact ih.enterAll (tree.block_sorts context)
  | statement statement context _ ih =>
    rw [collectStatement_eq]
    exact ih.enterAll (statement.statement_sorts context)
  | @linked c _ ih =>
    intro e he
    rw [resolveVariables, (c.grants_frame c.link.log).2] at he
    exact ih e he

theorem trees (h : Gathered c) (trees : List Json) : Gathered (collectTrees trees c).state := by
  induction trees generalizing c with
  | nil => exact h
  | cons tree rest ih =>
    have hfirst := h.tree tree ModuleName.root
    simp only [collectTrees, forEach, Step.andThen]
    split
    · exact ih hfirst
    · exact hfirst

end Gathered

theorem gathered_collected (options : Options) (trees : List Json) :
    Gathered (collected options trees) := by
  have h := (Gathered.start options).trees trees
  rwa [collectTrees_eq] at h

end Conversion
end Libdef
