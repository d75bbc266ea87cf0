import Libdef.Conversion.Output
import Libdef.Proofs.Survey
import Libdef.Proofs.WellTyped

set_option autoImplicit false

namespace Libdef

variable {Q : Fault → Prop}

/-- What is asked for is only the fault in which printing may end. -/
def Survey.faults (Q : Fault → Prop) (vocabulary : Vocabulary) : Survey vocabulary Empty where
  runs t _ P := Ends P Q t.result
  holds _ _ := True
  opens _ _ := True
  own _ := []
  fine h := Allows Q (Form.absentOrText h.text)

namespace Sheet

open Traced

variable {s : Shape Printed}

theorem ofText_endsIn (t : Text) : (ofText t).EndsIn Q := endsIn_pure _

theorem unsupported_endsIn (s : Shape Printed) : (unsupported s).EndsIn Q :=
  (endsIn_tell _).bind fun _ => ofText_endsIn _

theorem textNotString_of_allows {text : Option Json} {j : Json}
    (h : Allows Q (Form.absentOrText text)) (hj : text = some j) (hstr : ∀ t, j ≠ .str t) :
    Q .textNotString := by
  refine h.fault_of_ne (fun hf => ?_) rfl
  subst hj
  cases j with
  | str t => exact hstr t rfl
  | _ => cases hf

theorem ownText_endsIn (h : Allows Q (Form.absentOrText s.text)) : (ownText s).EndsIn Q := by
  rcases ownText_cases s with ⟨-, hs⟩ | ⟨t, -, -, hs⟩ | ⟨j, hj, hstr, hs⟩ <;> rw [hs]
  · exact ofText_endsIn _
  · exact ofText_endsIn _
  · exact endsIn_fail (textNotString_of_allows h hj hstr)

theorem literal_endsIn (h : Allows Q (Form.absentOrText s.text)) : (literal s).EndsIn Q := by
  rcases literal_cases s with ⟨-, hs⟩ | ⟨t, -, ⟨-, hs⟩ | ⟨-, hs⟩⟩ | ⟨j, hj, hstr, hs⟩ <;> rw [hs]
  · exact unsupported_endsIn s
  · exact ofText_endsIn _
  · exact ofText_endsIn _
  · exact endsIn_fail (textNotString_of_allows h hj hstr)

end Sheet

theorem Survey.faults_lawful {vocabulary : Vocabulary} : (faults Q vocabulary).Lawful where
  pure h := h
  bind ht hf := by
    simp only [faults, Traced.result_bind]
    exact Ends.bind ht hf
  holds_of_opens h := h
  append _ _ := trivial
  opens_append _ _ := trivial
  keyword _ _ := trivial
  lead _ _ _ := trivial
  seam _ _ _ := trivial
  tail _ _ := trivial
  enclosed _ _ _ := trivial
  indexed _ _ := trivial
  signature _ _ _ _ := trivial
  body _ _ := trivial
  heritage _ := trivial
  name _ := trivial
  nameText _ := trivial
  unsupported {s} _ _ := Sheet.unsupported_endsIn (Q := Q) s
  literal h _ := Sheet.literal_endsIn h
  ownText h _ := Sheet.ownText_endsIn h
  own_eq_nil _ := rfl

namespace Node

theorem printable_eq_all (n : Node) :
    n.printable = n.heads.all fun h => Form.absentOrText h.text := by
  induction n using Node.induct with
  | h n ih =>
    have hparts : n.shape.parts.all printable =
        n.shape.parts.all fun m => m.heads.all fun h => Form.absentOrText h.text := by
      rw [Bool.eq_iff_iff, List.all_eq_true, List.all_eq_true]
      exact forall₂_congr fun m hm => by rw [ih m hm]
    rw [printable_eq, heads_eq, List.all_cons, List.all_flatMap, hparts]
    rfl

variable {n : Node} (vocabulary : Vocabulary) (h : Allows Q n.printable)
include h

theorem fine_of_printable : ∀ h ∈ n.heads, (Survey.faults Q vocabulary).fine h := by
  rwa [printable_eq_all, Allows.all_iff] at h

theorem printed_endsIn : (n.printed vocabulary).sheet.EndsIn Q :=
  (Survey.faults_lawful.surveyed n (fine_of_printable vocabulary h)).sheet

end Node

/-- An item can be used and printed as its bucket asks for. -/
def Item.Fits (Q : Fault → Prop) (item : Item) : Bucket → Prop
  | .variables => Ends (fun _ => True) Q item.asVariable
  | .exports => Ends (fun _ => True) Q item.isDefault
  | _ => Ends (fun n => Allows Q n.printable) Q item.asDeclaration

namespace Module

def items (m : Module) : Bucket → List Item
  | .functions => m.functions
  | .classes => m.classes
  | .types => m.types
  | .interfaces => m.interfaces
  | .variables => []
  | .exports => m.exports

def printedItems (m : Module) : List Item := Conversion.printedBuckets.flatMap m.items

theorem mem_printedItems {m : Module} {item : Item} :
    item ∈ m.printedItems ↔ ∃ b, item ∈ m.items b := by
  rw [printedItems, List.mem_flatMap]
  refine ⟨fun ⟨b, _, hi⟩ => ⟨b, hi⟩, fun ⟨b, hi⟩ => ⟨b, ?_, hi⟩⟩
  cases b with
  | «variables» => cases hi
  | _ => decide

theorem isEmpty_eq (m : Module) : m.isEmpty = m.printedItems.isEmpty := by
  have happend (l l' : List Item) : (l ++ l').isEmpty = (l.isEmpty && l'.isEmpty) := by
    cases l <;> rfl
  simp only [isEmpty, printedItems, Conversion.printedBuckets, List.flatMap_cons, List.flatMap_nil,
    items, List.append_nil, happend]
  ac_rfl

theorem isEmpty_eq_false_iff {m : Module} : m.isEmpty = false ↔ ∃ b item, item ∈ m.items b := by
  rw [isEmpty_eq, List.isEmpty_eq_false_iff_exists_mem, exists_comm]
  simp only [mem_printedItems]

end Module

def Import.head (records : List Import) : Text :=
  if lines records = "" then "" else lines records ++ "\n\n"

namespace Sheet

open Traced

/-- The print of an item of a bucket in the block of its context, where variables have none. -/
def itemOf : Bucket → Item → Sheet
  | .types => declarationItem typeAlias
  | .interfaces => declarationItem interfaceDeclaration
  | .functions => declarationItem functionDeclaration
  | .classes => declarationItem classDeclaration
  | .exports => exportItem
  | .variables => fun _ => ofText ""

theorem group_endsIn {print : Item → Sheet} {items : List Item}
    (h : ∀ item ∈ items, (print item).EndsIn Q) : (group print items).EndsIn Q := by
  simp only [group]
  split
  · exact endsIn_pure _
  · exact (endsIn_mapM h).bind fun _ => endsIn_pure _

theorem declarationItem_endsIn {print : Shape Printed → Sheet} {item : Item}
    (hprint : ∀ s : Shape Node, (∀ m ∈ s.parts, (Survey.faults Q .declarations).Surveyed m) →
      (Survey.faults Q .declarations).fine s.toHead →
      (print (s.map (Node.printed .declarations))).EndsIn Q)
    (h : Ends (fun n => Allows Q n.printable) Q item.asDeclaration) :
    (declarationItem print item).EndsIn Q := by
  refine endsIn_lift_bind h fun n hn => ?_
  have hfine := Node.fine_of_printable .declarations hn
  exact hprint n.shape (Survey.faults_lawful.parts_surveyed hfine) (hfine _ n.head_mem_heads)

theorem exportItem_endsIn {item : Item} (h : Ends (fun _ => True) Q item.isDefault) :
    (exportItem item).EndsIn Q :=
  (endsIn_lift h).bind fun _ => ofText_endsIn _

theorem block_endsIn {rootName : Text} {m : Module}
    (h : ∀ b, ∀ item ∈ m.items b, item.Fits Q b) : (block rootName m).EndsIn Q := by
  have hlaws : (Survey.faults Q .declarations).Lawful := Survey.faults_lawful
  refine EndsIn.bind (group_endsIn fun item hi => ?_) fun types => ?_
  · exact declarationItem_endsIn (fun _ => hlaws.typeAlias_sheet) (h .types item hi)
  refine EndsIn.bind (group_endsIn fun item hi => ?_) fun interfaces => ?_
  · exact declarationItem_endsIn (fun _ hs hf => hlaws.container_sheet hs hf (by decide) _)
      (h .interfaces item hi)
  refine EndsIn.bind (group_endsIn fun item hi => ?_) fun functions => ?_
  · exact declarationItem_endsIn (fun _ => hlaws.functionDeclaration_sheet) (h .functions item hi)
  refine EndsIn.bind (group_endsIn fun item hi => ?_) fun classes => ?_
  · exact declarationItem_endsIn (fun _ hs hf => hlaws.container_sheet hs hf (by decide) _)
      (h .classes item hi)
  refine EndsIn.bind (group_endsIn fun item hi => ?_) fun exports => endsIn_pure _
  exact exportItem_endsIn (h .exports item hi)

theorem file_endsIn {rootName : Text} {imports : List Import} {modules : List Module}
    (h : ∀ m ∈ modules, ∀ b, ∀ item ∈ m.items b, item.Fits Q b) :
    (file rootName imports modules).EndsIn Q := by
  refine (endsIn_mapM fun m hm => ?_).bind fun blocks => endsIn_pure _
  exact block_endsIn (h m (List.mem_filter.mp hm).1)

end Sheet
end Libdef
