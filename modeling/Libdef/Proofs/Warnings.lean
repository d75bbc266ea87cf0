import Libdef.Proofs.Degraded
import Libdef.Proofs.Growth
import Libdef.Proofs.Leaves
import Libdef.Proofs.Listing
import Libdef.Proofs.References
import Libdef.Proofs.Renaming

/-!
Placeholders and warnings. A file prints its items as the nodes that they are, so that it reports
and marks what is degraded in them. Main statement: printing a node or a whole conversion makes one
report for each placeholder, and a conversion has as many warnings as it has placeholders and
variables that lie too deep.
-/

set_option autoImplicit false

namespace Libdef

def Item.degraded : Item → List Head
  | .declaration node => node.degraded .whole
  | _ => []

def Module.degraded (m : Module) : List Head := m.printedItems.flatMap Item.degraded

def Item.IsPlain : Item → Prop
  | .declaration node => node.IsPlain
  | .variable _ => True
  | .export e => Text.marks e.name = 0

instance : (item : Item) → Decidable item.IsPlain
  | .declaration node => inferInstanceAs (Decidable node.IsPlain)
  | .variable _ => inferInstanceAs (Decidable True)
  | .export e => inferInstanceAs (Decidable (Text.marks e.name = 0))

def Module.IsPlain (m : Module) : Prop :=
  Text.marks m.name = 0 ∧ ∀ item ∈ m.printedItems, item.IsPlain

instance (m : Module) : Decidable m.IsPlain :=
  inferInstanceAs (Decidable (_ = 0 ∧ ∀ item ∈ m.printedItems, item.IsPlain))

def Import.IsPlain (i : Import) : Prop :=
  Text.marks i.module = 0 ∧ ∀ name ∈ i.binding.toList ++ i.names, Text.marks name = 0

instance (i : Import) : Decidable i.IsPlain :=
  inferInstanceAs (Decidable (_ = 0 ∧ ∀ name ∈ i.binding.toList ++ i.names, _ = 0))

theorem Import.marks_line {i : Import} (h : i.IsPlain) : Text.marks i.line = 0 := by
  obtain ⟨hmodule, hnames⟩ := h
  have hbinding : Text.marks i.bindingText = 0 := by
    rw [bindingText]
    cases hb : i.binding with
    | none => rfl
    | some t => exact hnames t (by simp [hb])
  have hbraces : Text.marks i.namesText = 0 := by
    rw [namesText]
    split
    · rfl
    · rw [Text.marks_append_of_no_end (by decide), Text.marks_append_of_no_start (by decide),
        Text.marks_join (by decide) fun name hn => hnames name (List.mem_append_right _ hn)]
  have hlist : Text.marks (i.bindingText ++
      (if i.bindingText = "" ∨ i.names.isEmpty then ("" : Text) else ", ") ++ i.namesText) = 0 := by
    have hcomma : Text.IsSeam ", " := by decide
    split
    · rename_i hone
      rcases hone with hb | hn
      · rw [hb, Text.append_empty, Text.empty_append, hbraces]
      · rw [namesText, if_pos hn, Text.append_empty, Text.append_empty, hbinding]
    · rw [Text.append_assoc, hcomma.marks_append, hbinding, hbraces]
  have hfrom : Text.IsSeam " from '" := by decide
  -- Over any three texts, so that nothing tries to evaluate the line.
  have hframe (b m n : Text) (h : Text.marks (b ++ m ++ n) = 0) :
      Text.marks ("import type " ++ b ++ m ++ n ++ " from '" ++ i.module ++ "'") = 0 := by
    rw [Text.marks_append_of_no_end (by decide)]
    simp only [Text.append_assoc] at h ⊢
    rw [Text.marks_append_of_no_start (by decide)]
    have hall := hfrom.marks_append (b ++ (m ++ n)) i.module
    rw [h, hmodule] at hall
    simpa only [Text.append_assoc] using hall
  exact hframe _ _ _ hlist

theorem Import.marks_lines {imports : List Import} (h : ∀ i ∈ imports, i.IsPlain) :
    Text.marks (lines imports) = 0 := by
  refine Text.marks_join (by decide) fun line hl => ?_
  obtain ⟨i, hi, rfl⟩ := List.mem_map.mp hl
  exact marks_line (h i hi)

theorem ModuleName.marks_printed {rootName context : Text} (hroot : Text.marks rootName = 0)
    (hcontext : Text.marks context = 0) : Text.marks (printed rootName context) = 0 := by
  simp only [printed]
  split
  · exact hroot
  split
  -- A namespace is printed under a mark of its own, and what follows is part of the context.
  · rename_i ns hns
    obtain ⟨rest, hrest, rfl⟩ := Option.map_eq_some_iff.mp hns
    have hsplit : context.toList = contextMark.toList ++ rest := eq_append_of_after? hrest
    rw [Text.marks, hsplit, Text.marksIn_append_of_no_start (by decide)] at hcontext
    rw [ofNamespace, Text.marks_append_of_no_start (by decide), Text.marks, Text.toList_ofList,
      hcontext]
  · exact hcontext

namespace Sheet

open Traced Layout

variable {plain : Prop}

theorem itemOf_declaration {b : Bucket} {n : Node} (h : b.kind? = some n.head.kind) :
    itemOf b (.declaration n) = (n.printed .declarations).sheet := by
  have hkind : (n.parts .declarations).kind = n.head.kind := rfl
  rw [Node.printed_eq]
  cases b with
  | functions | classes | types | interfaces =>
    have hk := Option.some.inj h
    rw [← hkind] at hk
    simp only [print, ofShape, ← hk, if_true]
    exact bind_of_ok (result_lift _) _
  | «variables» | exports => cases h

theorem itemOf_marked {b : Bucket} {item : Item} (hsort : item.BelongsTo b)
    (hplain : plain → item.IsPlain) : Marked plain (itemOf b item) item.degraded := by
  cases item with
  | declaration n =>
    rw [itemOf_declaration hsort]
    exact n.told hplain
  | «variable» v =>
    rw [show b = .variables from hsort]
    exact ofText_marked fun _ => by decide
  | «export» e =>
    rw [show b = .exports from hsort]
    have hline : itemOf .exports (.export e) = ofText (exportLine (some e.name) e.isDefault) :=
      bind_of_ok (result_lift _) _
    rw [hline]
    refine ofText_marked fun hp => ?_
    have hword : CodePoint.char 'N' ∉
        (if e.isDefault then ("export default " : Text) else "export ").toList := by
      split <;> decide
    exact (Text.marks_append_of_no_start hword _).trans (hplain hp)

theorem group_told {b : Bucket} {items : List Item} (hsort : ∀ item ∈ items, item.BelongsTo b)
    (hplain : plain → ∀ item ∈ items, item.IsPlain) :
    (group (itemOf b) items).Tells (items.flatMap Item.degraded) fun groups =>
      (Survey.spots plain).All groups (items.flatMap Item.degraded) := by
  have hlaws : (Survey.spots plain).Lawful := Survey.spots_lawful
  simp only [group]
  split
  · rename_i hnone
    rw [List.isEmpty_iff.mp hnone]
    exact tells_pure .nil
  · have hitems := hlaws.mapM_sheets fun item hi =>
      itemOf_marked (hsort item hi) fun hp => hplain hp item hi
    refine hlaws.map hitems fun layouts hl => .singleton fun hp => ?_
    exact ((hl.showAll hp).joined (by decide)).after (by decide)

theorem block_marked {rootName : Text} {m : Module}
    (hsort : ∀ b, ∀ item ∈ m.items b, item.BelongsTo b)
    (hplain : plain → Text.marks rootName = 0 ∧ m.IsPlain) :
    Marked plain (block rootName m) m.degraded := by
  have hlaws : (Survey.spots plain).Lawful := Survey.spots_lawful
  have hgroups := hlaws.mapM (l := Conversion.printedBuckets)
    (fun b => (m.items b).flatMap Item.degraded) id fun b hb =>
      group_told (hsort b) fun hp item hi =>
        (hplain hp).2.2 item (List.mem_flatMap.mpr ⟨b, hb, hi⟩)
  rw [block_eq, ← bind_pure_comp, Module.degraded, Module.printedItems, List.flatMap_assoc]
  refine hlaws.map hgroups fun groups hg hp => ?_
  have hname := shows_text (ModuleName.marks_printed (hplain hp).1 (hplain hp).2.1)
  have hblank : Text.IsSeam "\n\n" := by decide
  have hinner := (hg.showAll hp).joined hblank
  rw [List.flatMap_id] at hinner
  have hbody := (hinner.append (opens_text (s := "\n\x7d") (by decide))).afterSeam (s := "' \x7b\n")
    (by decide)
  exact ((hname.append hbody).after (by decide)).of_eq (Nat.zero_add _)

theorem file_marked {rootName : Text} {imports : List Import} {modules : List Module}
    (hsort : ∀ m ∈ modules, ∀ b, ∀ item ∈ m.items b, item.BelongsTo b)
    (hplain : plain → Text.marks rootName = 0 ∧ (∀ i ∈ imports, i.IsPlain) ∧
      ∀ m ∈ modules, m.IsPlain) :
    Marked plain (file rootName imports modules)
      ((modules.filter Module.isPrinted).flatMap Module.degraded) := by
  have hblock (m : Module) (hm : m ∈ modules.filter Module.isPrinted) :
      Marked plain (block rootName m) m.degraded := by
    have hmem := (List.mem_filter.mp hm).1
    exact block_marked (hsort m hmem) fun hp => ⟨(hplain hp).1, (hplain hp).2.2 m hmem⟩
  have hlaws : (Survey.spots plain).Lawful := Survey.spots_lawful
  refine hlaws.map (hlaws.mapM_sheets hblock) fun blocks hb hp width => ?_
  have hblank : Text.IsSeam "\n\n" := by decide
  have hbody := ((hb.showAll hp).joined hblank).append (opens_text (s := "\n") (by decide)) width
  have hlines := Import.marks_lines (hplain hp).2.1
  show Text.marks (Import.head imports ++ _) = _
  rw [Import.head]
  split
  · rw [Text.empty_append]
    exact hbody
  · rw [Text.append_assoc, hblank.marks_append, hlines, Nat.zero_add]
    exact hbody

end Sheet

namespace Log

variable {log : Log}

theorem Kept.warningCount_eq (h : log.Kept) :
    log.warningCount = log.count .deepNamespace + log.count .unsupportedKind := by
  rw [h.warningCount_eq_countP, count, count]
  induction log.records with
  | nil => rfl
  | cons d ds ih =>
    simp only [List.countP_cons, ih]
    cases d.kind <;> simp [DiagnosticKind.isWarning] <;> omega

theorem count_of_split {before after : List Diagnostic} {kind : DiagnosticKind}
    (h : log.records = before ++ after) (hbefore : ∀ d ∈ before, d.kind ≠ kind)
    (hafter : ∀ d ∈ after, d.kind = kind) : log.count kind = after.length := by
  have hnone : before.countP (fun d => d.kind == kind) = 0 :=
    List.countP_eq_zero.mpr fun d hd => by simpa using hbefore d hd
  have hall : after.countP (fun d => d.kind == kind) = after.length :=
    List.countP_eq_length.mpr fun d hd => by simpa using hafter d hd
  rw [count, h, List.countP_append, hnone, hall, Nat.zero_add]

end Log

namespace Conversion

variable {c : Conversion}

theorem kept_collected (options : Options) (trees : List Json) :
    (collected options trees).log.Kept := by
  have hgrows := grows_enterAll { options := options } ((sitesOf trees).forM Site.filing).log
  rw [Log.Kept, collected, hgrows.warnings, hgrows.records]
  rfl

/-- What is collected reports what it leaves out, not how it will be printed. -/
theorem kind_of_mem_collected {options : Options} {trees : List Json} {d : Diagnostic}
    (h : d ∈ (collected options trees).log.records) : d.kind ≠ .unsupportedKind := by
  have hextends := extends_enterAll { options := options } ((sitesOf trees).forM Site.filing).log
  rw [collected, hextends.records, List.nil_append] at h
  obtain ⟨trace, htrace, hd⟩ := List.mem_filterMap.mp h
  obtain ⟨entry, hentry, htold⟩ := List.mem_filterMap.mp htrace
  cases entry with
  | report r =>
    cases htold
    cases hd
    obtain ⟨site, -, hsite⟩ := Traced.mem_log_forM hentry
    rw [Site.kind_of_report_mem hsite]
    cases site <;> simp [Site.reportKind]
  | item item context b =>
    cases htold
    cases hd
  | knownNamespace name => cases htold
  | knownContext name => cases htold

section

variable (options : Options) (trees : List Json)

theorem granted_collected :
    (collected options trees).granted = (collected options trees).resolveVariables.state := by
  rw [resolveVariables, link_eq (wellFiled_collected options trees)
    (holdsVariables_collected options trees)]
  rfl

theorem gathered_granted : Gathered (collected options trees).granted :=
  granted_collected options trees ▸ (gathered_collected options trees).linked

/-- Linking logs the variables that lie too deep and renaming the exports of unknown names. -/
theorem log_resolved :
    (resolved options trees).log =
      ((collected options trees).log.addAll
        ((collected options trees).deepReports (collected options trees).store.variablesAt)).addAll
          (collected options trees).granted.unresolvedReports := by
  have hgathered := gathered_granted options trees
  have hlinked : (collected options trees).granted.log = (collected options trees).log.addAll
      ((collected options trees).deepReports (collected options trees).store.variablesAt) := by
    rw [granted_collected, resolveVariables_eq
      ((holdsVariables_collected options trees).holds (wellFiled_collected options trees))]
  rw [resolved, relinked, relinkedAt, hgathered.sorted.unresolved_eq_reports, hlinked]

theorem kept_resolved : (resolved options trees).log.Kept := by
  rw [log_resolved]
  exact ((kept_collected options trees).addAll _).addAll _

theorem kind_of_mem_resolved {d : Diagnostic}
    (h : d ∈ (resolved options trees).log.records) : d.kind ≠ .unsupportedKind := by
  rw [log_resolved, Log.records_addAll, Log.records_addAll] at h
  simp only [List.mem_append, deepReports, unresolvedReports, List.mem_flatMap, List.mem_map] at h
  rcases h with (h | ⟨-, -, v, -, rfl⟩) | ⟨-, -, e, -, rfl⟩
  · exact kind_of_mem_collected h
  · exact DiagnosticKind.noConfusion
  · exact DiagnosticKind.noConfusion

theorem options_resolved : (resolved options trees).options = options :=
  (grants_frame _ _).1.options.trans (enterAll_frame _ _).1

theorem sorted_resolved : (resolved options trees).Sorted := by
  have hgathered := gathered_granted options trees
  rintro ⟨g, item⟩ hm
  rw [resolved, hgathered.sorted.store_relinked hgathered.wellFiled] at hm
  simp only [renamedStore, Store.mapItems, Array.toList_map, List.mem_map, Prod.exists,
    Prod.mk.injEq] at hm
  obtain ⟨g, before, hbefore, rfl, rfl⟩ := hm
  exact (hgathered.sorted _ hbefore).resolved _ _

end

theorem fileSheet_marked {plain : Prop} (h : c.WellFiled) (hs : c.Sorted) {modules : List Module}
    (hmodules : c.modules = .ok modules)
    (hplain : plain → Text.marks c.options.rootModule = 0 ∧
      (∀ i ∈ c.imports.records, i.IsPlain) ∧ ∀ m ∈ modules, m.IsPlain) :
    Sheet.Marked plain c.fileSheet
      ((modules.filter Module.isPrinted).flatMap Module.degraded) := by
  have hsheet : c.fileSheet = Sheet.file c.options.rootModule c.imports.records modules := by
    rw [fileSheet, hmodules, Traced.bind_of_ok (Traced.result_lift _)]
    rfl
  rw [hsheet]
  refine Sheet.file_marked (fun m hm b item hi => ?_) hplain
  rw [modules_eq h] at hmodules
  cases hmodules
  obtain ⟨name, -, rfl⟩ := List.mem_map.mp hm
  exact hs.of_mem_itemsAt (Store.mem_items_moduleAt.mp hi).2

theorem printed_of_marked {plain : Prop} {sheet : Sheet} {spots : List Head} {text : Text}
    (h : Sheet.Marked plain sheet spots) (htext : (c.printed sheet).2 = .ok text) :
    (c.printed sheet).1 = { c with log := c.log.addAll (spots.map Head.report) } ∧
      (plain → Text.marks text = spots.length) := by
  simp only [printed] at htext ⊢
  cases hlayout : sheet.result with
  | error e =>
    rw [hlayout] at htext
    cases htext
  | ok layout =>
    rw [hlayout] at htext
    cases htext
    obtain ⟨hlog, hshows⟩ := h.of_ok layout hlayout
    rw [hlog]
    exact ⟨rfl, fun hp => hshows hp _⟩

theorem render_of_convert {options : Options} {trees : List Json} {text : Text}
    (h : convert options trees = .ok (c, text)) :
    (resolved options trees).render = (c, .ok text) := by
  rw [convert_of_pass options (Site.pass_iff.mp (convert_inv h).1)] at h
  cases htext : (resolved options trees).render.2 with
  | error e =>
    rw [htext] at h
    cases h
  | ok text =>
    rw [htext] at h
    cases h
    exact Prod.ext rfl htext

/-- Whatever is printed, the reports that a file leaves last are those on its placeholders. -/
theorem log_of_render {d : Conversion} {text : Text} (h : c.WellFiled) (hs : c.Sorted)
    (hrender : c.render = (d, .ok text)) :
    ∃ modules, d.modules = .ok modules ∧
      let spots := (modules.filter Module.isPrinted).flatMap Module.degraded
      d.log = c.log.addAll (spots.map Head.report) ∧
      (Text.marks c.options.rootModule = 0 → (∀ i ∈ d.imports.records, i.IsPlain) →
        (∀ m ∈ modules, m.IsPlain) → Text.marks text = spots.length) := by
  have hmodules := modules_eq h
  have hmarked := fileSheet_marked h hs hmodules id
  obtain ⟨hstate, hmarks⟩ := printed_of_marked hmarked (congrArg Prod.snd hrender)
  rw [← render, hrender] at hstate
  rw [show d = _ from hstate]
  exact ⟨_, hmodules, rfl, fun hroot himports hm => hmarks ⟨hroot, himports, hm⟩⟩

/-- Printing a node, at any width and on top of any log, reports what is degraded in it, once each
and in the order of visiting, and nothing else; its text does not depend on the log and has as many
placeholders. So the warnings of a conversion are one for each placeholder in its text and one for
each variable that lies too deep. -/
theorem warnings_count_placeholders :
    (∀ (n : Node) (c : Conversion),
      let sheet := (n.printed .declarations).sheet
      let spots := n.degraded .whole
      (∃ made, made <+: spots.map Head.report ∧
        (c.printed sheet).1 = { c with log := c.log.addAll made }) ∧
      (n.printable = true → ∃ text, (c.printed sheet).2 = .ok text) ∧
      (∀ log, (printed { c with log := log } sheet).2 = (c.printed sheet).2) ∧
      ∀ text, (c.printed sheet).2 = .ok text →
        (c.printed sheet).1 = { c with log := c.log.addAll (spots.map Head.report) } ∧
        (c.printed sheet).1.log.records = c.log.records ++ spots.map Head.report ∧
        (n.IsPlain → Text.marks text = spots.length)) ∧
    ∀ (options : Options) (trees : List Json) (c : Conversion) (text : Text),
      convert options trees = .ok (c, text) →
      ∃ modules before, c.modules = .ok modules ∧
        let spots := (modules.filter Module.isPrinted).flatMap Module.degraded
        c.log.records = before ++ spots.map Head.report ∧
        (∀ d ∈ before, d.kind ≠ .unsupportedKind) ∧
        c.log.warningCount = c.log.count .deepNamespace + spots.length ∧
        (Text.marks options.rootModule = 0 → (∀ i ∈ c.imports.records, i.IsPlain) →
          (∀ m ∈ modules, m.IsPlain) →
          c.log.warningCount = c.log.count .deepNamespace + Text.marks text) := by
  refine ⟨fun n c => ?_, fun options trees c text hconvert => ?_⟩
  · intro sheet spots
    have hmarked : Sheet.Marked n.IsPlain sheet spots := n.told id
    refine ⟨⟨sheet.log, hmarked.log, rfl⟩, fun hp => ?_, fun log => rfl, fun text htext => ?_⟩
    · obtain ⟨layout, hl, -⟩ := (n.printed_endsIn .declarations (.of_eq_true hp)).exists_ok
      exact ⟨layout.render c.options.lineWidth, by rw [printed, hl]; rfl⟩
    · obtain ⟨hstate, hmarks⟩ := printed_of_marked hmarked htext
      exact ⟨hstate, by rw [hstate, Log.records_addAll], hmarks⟩
  · obtain ⟨modules, hmodules, hlog, hmarks⟩ := log_of_render (wellFiled_resolved options trees)
      (sorted_resolved options trees) (render_of_convert hconvert)
    rw [options_resolved] at hmarks
    have hkept : c.log.Kept := hlog ▸ (kept_resolved options trees).addAll _
    have hrecords := congrArg Log.records hlog
    rw [Log.records_addAll] at hrecords
    have hbefore (d : Diagnostic) := kind_of_mem_resolved options trees (d := d)
    have hcount := Log.count_of_split hrecords hbefore fun d hd => by
      obtain ⟨spot, -, rfl⟩ := List.mem_map.mp hd
      rfl
    rw [List.length_map] at hcount
    have hwarnings := hkept.warningCount_eq
    rw [hcount] at hwarnings
    refine ⟨modules, _, hmodules, hrecords, hbefore, hwarnings, fun hroot himports hm => ?_⟩
    rw [hwarnings, hmarks hroot himports hm]

/-- A function with three placeholders is printed on top of a log, at a width where it is wrapped.
In a file, it stands beside a class whose private method and whose constructor have types that are
not printed, and a variable that lies too deep. -/
theorem warnings_count_placeholders_wrapped :
    let spot (raw : Text) := Node.mk { kind := .unsupported, rawKind := .str raw }
    let function := Node.mk
      { kind := .functionDeclaration, name := some "f",
        parameters := [.mk { kind := .parameter, name := some "x", type := some (spot "A") }],
        typeParameters := [.mk { kind := .typeParameter, name := some "T",
                                 constraint := some (spot "B") }],
        type := some (.mk { kind := .literalType }) }
    let start : Conversion :=
      { options := { lineWidth := 10 }, log := Log.add {} (spot "earlier").head.report }
    let after := start.printed (function.printed .declarations).sheet
    let kindOnly (kind : Text) := Json.obj [("kind", .str kind)]
    let tree := Json.sourceFile [
      .namespaceNode "a" [], .variableNode "v" (.qualifiedName "a.b" "T"),
      .obj [("kind", .str "FunctionDeclaration"), ("name", .identifier "f"),
        ("parameters", .arr [.obj [("kind", .str "Parameter"), ("name", .identifier "x"),
          ("type", kindOnly "A")]]),
        ("type", kindOnly "B")],
      .obj [("kind", .str "ClassDeclaration"), ("name", .identifier "C"),
        ("members", .arr [
          .obj [("kind", .str "MethodDeclaration"), ("name", .identifier "m"),
            ("modifiers", .arr [kindOnly "PrivateKeyword"]), ("type", kindOnly "A")],
          .obj [("kind", .str "Constructor"), ("type", kindOnly "A")]])]]
    (∃ text, after.2 = .ok text ∧ Text.marks text = 3 ∧
      after.1.log.records.map Diagnostic.message =
        ["No printer for earlier", "No printer for A", "No printer for B",
         "No printer for LiteralType"]) ∧
    ∃ c text, convert {} [tree] = .ok (c, text) ∧ Text.marks text = 2 ∧
      c.log.count .deepNamespace = 1 ∧ c.log.warningCount = 3 := by
  intro spot function start after kindOnly tree
  obtain ⟨hnode, hconvert⟩ := warnings_count_placeholders
  refine ⟨?_, ?_⟩
  · obtain ⟨-, hok, -, htext⟩ := hnode function start
    obtain ⟨text, ht⟩ := hok (by decide +kernel)
    obtain ⟨-, hrecords, hmarks⟩ := htext text ht
    refine ⟨text, ht, (hmarks (by decide +kernel)).trans (by decide +kernel), ?_⟩
    rw [hrecords]
    decide +kernel
  · have hrun : (convert {} [tree]).toOption.map (fun out =>
        (Text.marks out.2, out.1.log.count .deepNamespace,
          decide (∀ i ∈ out.1.imports.records, i.IsPlain),
          out.1.modules.toOption.map fun modules => decide (∀ m ∈ modules, m.IsPlain))) =
        some (2, 1, true, some true) := by decide +kernel
    obtain ⟨⟨c, text⟩, hc, hread⟩ := exists_ok_of_map hrun
    simp only [Prod.mk.injEq, decide_eq_true_eq] at hread
    obtain ⟨hmarks, hdeep, himports, hplain⟩ := hread
    obtain ⟨modules, -, hmodules, -, -, -, hcount⟩ := hconvert {} [tree] c text hc
    rw [hmodules] at hplain
    have hwarnings := hcount (by decide +kernel) himports
      (of_decide_eq_true (Option.some.inj hplain))
    rw [hdeep, hmarks] at hwarnings
    exact ⟨c, text, hc, hmarks, hdeep, hwarnings⟩

end Conversion
end Libdef
