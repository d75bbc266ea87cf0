import Libdef.Proofs.ExportBinding
import Libdef.Proofs.Sorts

set_option autoImplicit false

namespace Libdef

/-- The export under the value of its variable, or as it is if there is no such variable. -/
def Export.resolved (own root : List Variable) (e : Export) : Export :=
  match exportedVariable own root (some e.name) with
  | some v => { e with name := v.value }
  | none => e

def Item.resolved (own root : List Variable) : Item → Item
  | .export e => .export (e.resolved own root)
  | item => item

theorem Item.BelongsTo.resolved {item : Item} {b : Bucket} (h : item.BelongsTo b)
    (own root : List Variable) : (item.resolved own root).BelongsTo b := by
  cases item with
  | «export» e => exact h
  | declaration node => exact h
  | «variable» v => exact h

def Store.exportsAt (store : Store) (context : Text) : List Export :=
  (store.itemsAt context .exports).filterMap Item.toExport?

namespace Conversion

variable {c : Conversion}

def renamedStore (c : Conversion) : Store :=
  c.store.mapItems fun g =>
    Item.resolved (c.store.variablesAt g.context) (c.store.variablesAt ModuleName.root)

/-- One report for each export that names no variable, context by context. -/
def unresolvedReports (c : Conversion) : List Diagnostic :=
  c.contexts.names.flatMap fun context =>
    ((c.store.exportsAt context).filter fun e =>
      (c.exportTarget? context (some e.name)).isNone).map fun e => unresolved context (some e.name)

theorem relink_export (c : Conversion) (context : Text) (e : Export) :
    c.relink context (.export e) = .export
      (e.resolved (c.store.variablesAt context) (c.store.variablesAt ModuleName.root)) := by
  simp only [relink, exportValue?, exportTarget?, Export.resolved, Item.name]
  cases exportedVariable (c.store.variablesAt context) (c.store.variablesAt ModuleName.root)
    (some e.name) <;> rfl

namespace Sorted

theorem itemsAt_exports (hs : c.Sorted) (context : Text) :
    c.store.itemsAt context .exports = (c.store.exportsAt context).map .export := by
  refine Item.eq_map_filterMap .export Item.toExport? (fun _ => rfl) ?_
  intro item hi
  have hsort := hs.of_mem_itemsAt hi
  cases item with
  | «export» e => exact ⟨e, rfl⟩
  | declaration node => cases hsort
  | «variable» v => cases hsort

theorem store_relinked (hs : c.Sorted) (h : c.WellFiled) : c.relinked.store = c.renamedStore := by
  apply Store.mapItems_congr
  rintro ⟨g, item⟩ he
  have hsort : item.BelongsTo g.bucket := hs _ he
  simp only [relinkIn, fst_mem_exportEntries h he]
  cases item with
  | «export» e =>
    rw [Item.BelongsTo] at hsort
    rw [if_pos hsort, relink_export]
    rfl
  | declaration node =>
    refine if_neg fun hb => ?_
    rw [Item.BelongsTo, hb] at hsort
    cases hsort
  | «variable» v =>
    refine if_neg fun hb => ?_
    cases hb.symm.trans hsort

theorem unresolved_eq_reports (hs : c.Sorted) :
    c.exportEntries.filterMap c.unresolved? = c.unresolvedReports := by
  rw [unresolved_eq]
  refine List.flatMap_congr fun context _ => ?_
  rw [← Store.itemsAt_eq_content, hs.itemsAt_exports]
  generalize c.store.exportsAt context = exports
  induction exports with
  | nil => rfl
  | cons e rest ih =>
    rw [List.map_cons, List.filterMap_cons, List.filter_cons, exportValue?, Item.name]
    cases c.exportTarget? context (some e.name) with
    | none => simpa using ih
    | some v => simpa using ih

end Sorted

end Conversion
end Libdef
