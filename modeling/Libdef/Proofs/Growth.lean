import Libdef.Proofs.Declarators

/-!
Collection only ever adds, and what it adds does not depend on what is there. Main statement: a
statement ends in the same way and adds the same insertions, namespaces, contexts and reports
whatever the conversion holds already, all of which stays as it was; a statement that files one
item at most leaves nothing behind when it fails.
-/

set_option autoImplicit false

namespace Libdef

structure Insertion where
  item : Item
  context : Text
  bucket : Bucket

def Insertion.entry (i : Insertion) (n : Nat) : Handle × Item :=
  ({ index := n, context := i.context, bucket := i.bucket, name := i.item.handleName }, i.item)

def issued (n : Nat) (insertions : List Insertion) : List (Handle × Item) :=
  (insertions.zipIdx n).map fun p => p.1.entry p.2

theorem issued_append (n : Nat) (is js : List Insertion) :
    issued n (is ++ js) = issued n is ++ issued (n + is.length) js := by
  simp [issued, List.zipIdx_append]

theorem length_issued (n : Nat) (is : List Insertion) : (issued n is).length = is.length := by
  simp [issued]

/-- The names that are not known yet, each once, in the order in which they first come. -/
def fresh (known : List Text) : List Text → List Text
  | [] => []
  | name :: rest =>
    if name ∈ known then fresh known rest else name :: fresh (known ++ [name]) rest

theorem fresh_append (known xs ys : List Text) :
    fresh known (xs ++ ys) = fresh known xs ++ fresh (known ++ fresh known xs) ys := by
  induction xs generalizing known with
  | nil => simp [fresh]
  | cons name rest ih =>
    by_cases h : name ∈ known
    · simp [fresh, h, ih]
    · simp [fresh, h, ih]

structure Addition where
  insertions : List Insertion
  /-- The namespaces that are pushed, known or not. -/
  namespaces : List Text
  /-- The contexts that are asked for, each insertion being filed in one. -/
  contexts : List Text
  reports : List Diagnostic

namespace Addition

instance : Append Addition where
  append a b :=
    ⟨a.insertions ++ b.insertions, a.namespaces ++ b.namespaces, a.contexts ++ b.contexts,
      a.reports ++ b.reports⟩

def ofEntry : Entry → Addition
  | .item item context bucket => ⟨[⟨item, context, bucket⟩], [], [context], []⟩
  | .knownNamespace name => ⟨[], [name], [], []⟩
  | .knownContext name => ⟨[], [], [name], []⟩
  | .report d => ⟨[], [], [], [d]⟩

def ofEntries : List Entry → Addition
  | [] => ⟨[], [], [], []⟩
  | entry :: rest => ofEntry entry ++ ofEntries rest

end Addition

namespace Contexts

theorem get?_request (cs : Contexts) (name other : Text) :
    (cs.request name).get? other =
      (cs.get? other).or (if other = name then some { name := name } else none) := by
  by_cases hc : name ∈ cs.names
  · have hrequest : cs.request name = cs := by simp [request, hc]
    rw [hrequest]
    by_cases hn : other = name
    · obtain ⟨x, hx, hname⟩ := List.mem_map.mp hc
      have hfound : (cs.get? other).isSome = true :=
        List.find?_isSome.mpr ⟨x, hx, by simp [hname, hn]⟩
      cases hg : cs.get? other with
      | none => simp [hg] at hfound
      | some y => rfl
    · simp [hn]
  · simp only [request, List.contains_eq_mem, hc, decide_false, Bool.false_eq_true, if_false, get?,
      List.find?_append]
    by_cases hn : other = name
    · simp [hn]
    · simp [hn, Ne.symm hn]

theorem get?_file (cs : Contexts) (name : Text) (h : Handle) (other : Text) :
    (cs.file name h).get? other =
      ((cs.request name).get? other).map fun x => if other = name then x.file h else x := by
  have htest : ((fun x : Context => x.name == other) ∘
      fun x => if x.name = name then x.file h else x) = fun x => x.name == other := by
    funext x
    by_cases hx : x.name = name <;> simp [hx, Context.file]
  simp only [get?, file, List.find?_map, htest]
  cases hx : (cs.request name).list.find? fun x => x.name == other with
  | none => rfl
  | some x =>
    have hname : x.name = other := by simpa using List.find?_some hx
    simp [hname]

theorem bucket_request (cs : Contexts) (name other : Text) (b : Bucket) :
    (cs.request name).bucket other b = cs.bucket other b := by
  simp only [bucket, get?_request]
  cases cs.get? other with
  | some x => rfl
  | none =>
    by_cases hn : other = name
    · simp [hn, Context.bucket]
    · simp [hn]

theorem bucket_file (cs : Contexts) (h : Handle) (other : Text) (b : Bucket) :
    (cs.file h.context h).bucket other b =
      cs.bucket other b ++ [h].filter fun g => g.context == other && g.bucket == b := by
  rw [← cs.bucket_request h.context]
  simp only [bucket, get?_file]
  by_cases hn : other = h.context
  · have hfound : ((cs.request h.context).get? other).isSome = true := by
      simp [get?_request, hn]
    obtain ⟨x, hx⟩ := Option.isSome_iff_exists.mp hfound
    rw [hx]
    simp [hn, Context.bucket, Context.file, List.filter_cons]
  · cases (cs.request h.context).get? other <;> simp [hn, Ne.symm hn]

end Contexts

namespace Conversion

variable {c d : Conversion} {a : Addition}

/-- `d` is `c` with the addition: its handles are numbered on, and of its namespaces and contexts
only those are new that `c` does not have. -/
structure Grows (c : Conversion) (a : Addition) (d : Conversion) : Prop where
  options : d.options = c.options
  imports : d.imports = c.imports
  entries : d.store.entries.toList = c.store.entries.toList ++ issued c.store.size a.insertions
  names : d.contexts.names = c.contexts.names ++ fresh c.contexts.names a.contexts
  bucket : ∀ name b, d.contexts.bucket name b = c.contexts.bucket name b ++
    ((issued c.store.size a.insertions).map Prod.fst).filter fun h =>
      h.context == name && h.bucket == b
  namespaces : d.namespaces = c.namespaces ++ fresh c.namespaces a.namespaces
  records : d.log.records = c.log.records ++ a.reports
  warnings : d.log.warnings = c.log.warnings ++
    (a.reports.filter fun r => r.kind.isWarning).map Diagnostic.format

/-- Everything that `c` holds is in `d`, unchanged and in the same order, before anything else. -/
structure IsStartOf (c d : Conversion) : Prop where
  imports : d.imports = c.imports
  entries : c.store.entries.toList <+: d.store.entries.toList
  names : c.contexts.names <+: d.contexts.names
  bucket : ∀ name b, c.contexts.bucket name b <+: d.contexts.bucket name b
  namespaces : c.namespaces <+: d.namespaces
  records : c.log.records <+: d.log.records
  warnings : c.log.warnings <+: d.log.warnings

namespace Grows

theorem isStartOf (h : c.Grows a d) : c.IsStartOf d where
  imports := h.imports
  entries := h.entries ▸ List.prefix_append _ _
  names := h.names ▸ List.prefix_append _ _
  bucket name b := h.bucket name b ▸ List.prefix_append _ _
  namespaces := h.namespaces ▸ List.prefix_append _ _
  records := h.records ▸ List.prefix_append _ _
  warnings := h.warnings ▸ List.prefix_append _ _

theorem size (h : c.Grows a d) : d.store.size = c.store.size + a.insertions.length := by
  have hlength := congrArg List.length h.entries
  simpa [length_issued, Store.size] using hlength

theorem trans {e : Conversion} {b : Addition} (h : c.Grows a d) (h' : d.Grows b e) :
    c.Grows (a ++ b) e where
  options := h'.options.trans h.options
  imports := h'.imports.trans h.imports
  entries := by
    show _ = _ ++ issued _ (a.insertions ++ b.insertions)
    rw [h'.entries, h.entries, h.size, issued_append, List.append_assoc]
  names := by
    show _ = _ ++ fresh _ (a.contexts ++ b.contexts)
    rw [h'.names, h.names, fresh_append, List.append_assoc]
  bucket name bucket := by
    show _ = _ ++ ((issued _ (a.insertions ++ b.insertions)).map Prod.fst).filter _
    rw [h'.bucket, h.bucket, h.size, issued_append, List.map_append, List.filter_append,
      List.append_assoc]
  namespaces := by
    show _ = _ ++ fresh _ (a.namespaces ++ b.namespaces)
    rw [h'.namespaces, h.namespaces, fresh_append, List.append_assoc]
  records := by
    show _ = _ ++ (a.reports ++ b.reports)
    rw [h'.records, h.records, List.append_assoc]
  warnings := by
    show _ = _ ++ ((a.reports ++ b.reports).filter _).map _
    rw [h'.warnings, h.warnings, List.filter_append, List.map_append, List.append_assoc]

end Grows

theorem grows_insert (c : Conversion) (item : Item) (context : Text) (b : Bucket) :
    c.Grows (.ofEntry (.item item context b)) (c.insert item context b).1 where
  options := rfl
  imports := rfl
  entries := Array.toList_push
  names := by
    rw [insert, Contexts.names_file, Contexts.names_request]
    by_cases hc : context ∈ c.contexts.names <;> simp [Addition.ofEntry, fresh, hc]
  bucket name b' := Contexts.bucket_file _ (c.store.nextHandle item context b) name b'
  namespaces := by simp [insert, Addition.ofEntry, fresh]
  records := by simp [insert, Addition.ofEntry]
  warnings := by simp [insert, Addition.ofEntry]

theorem grows_enter (c : Conversion) (entry : Entry) :
    c.Grows (.ofEntry entry) (c.enter entry) := by
  cases entry with
  | item item context b => exact c.grows_insert item context b
  | knownNamespace name =>
    by_cases hn : name ∈ c.namespaces
    · have hsame : c.pushNamespace name = c := by simp [pushNamespace, isNamespace, hn]
      constructor <;> simp [enter, hsame, Addition.ofEntry, issued, fresh, hn]
    · have hpush : c.pushNamespace name = { c with namespaces := c.namespaces ++ [name] } := by
        simp [pushNamespace, isNamespace, hn]
      constructor <;> simp [enter, hpush, Addition.ofEntry, issued, fresh, hn]
  | knownContext name =>
    constructor
    case names =>
      rw [enter, requestContext, Contexts.names_request]
      by_cases hc : name ∈ c.contexts.names <;> simp [Addition.ofEntry, fresh, hc]
    case bucket =>
      intro other b
      simp [enter, requestContext, Contexts.bucket_request, Addition.ofEntry, issued]
    all_goals simp [enter, requestContext, Addition.ofEntry, issued, fresh]
  | report r =>
    constructor
    case warnings =>
      cases hr : r.kind.isWarning <;> simp [enter, report, Log.add, Addition.ofEntry, hr]
    all_goals simp [enter, report, Log.add, Addition.ofEntry, issued, fresh]

theorem grows_enterAll (c : Conversion) (entries : List Entry) :
    c.Grows (.ofEntries entries) (c.enterAll entries) := by
  induction entries generalizing c with
  | nil => constructor <;> simp [enterAll, Addition.ofEntries, issued, fresh]
  | cons entry rest ih => exact (c.grows_enter entry).trans (ih (c.enter entry))

end Conversion

/-! Statements that file one item at most. -/

def Filing.singleKinds : List Text := [
  "FunctionDeclaration", "InterfaceDeclaration", "TypeAliasDeclaration", "ClassDeclaration",
  "ExportAssignment"]

/-- Filing that may fail only before it tells anything. -/
def Filing.TellsLast (filing : Filing) : Prop := ∀ e, filing.result = .error e → filing.log = []

theorem Filing.tellsLast_lift_bind {α : Type} {r : Except Fault α} {f : α → Filing}
    (hf : ∀ a, ∃ entry, f a = Traced.tell entry) : TellsLast (Traced.lift r >>= f) := by
  intro e he
  cases r with
  | error e' => rw [Traced.bind_of_error (Traced.result_lift _)]; rfl
  | ok a =>
    obtain ⟨entry, hentry⟩ := hf a
    rw [Traced.bind_of_ok (Traced.result_lift _), hentry] at he
    cases he

theorem Filing.tellsLast_declaration (j : Json) (bucket : Bucket) (context : Text) :
    TellsLast (declaration j bucket context) :=
  tellsLast_lift_bind fun _ => ⟨_, rfl⟩

theorem Filing.tellsLast_exportAssignment (j : Json) (context : Text) :
    TellsLast (exportAssignment j context) := by
  refine tellsLast_lift_bind fun name => ?_
  split
  · exact ⟨_, rfl⟩
  · exact ⟨_, rfl⟩

theorem Json.tellsLast_of_singleKinds {j : Json} {kind : Text} (hk : kind ∈ Filing.singleKinds)
    (hj : j.get "kind" = .str kind) (context : Text) :
    Filing.TellsLast ((j.tour.statement context).forM Site.filing) := by
  have hsingle {site : Site} (h : site.filing.TellsLast) :
      Filing.TellsLast ([site].forM Site.filing) := by
    simpa [bind_pure_comp] using h
  rw [tour_eq]
  cases j with
  | obj fields =>
    simp only [Tour.step, Tour.statementOf, hj]
    simp only [Filing.singleKinds, List.mem_cons, List.not_mem_nil, or_false] at hk
    rcases hk with rfl | rfl | rfl | rfl | rfl
    · exact hsingle (Filing.tellsLast_declaration _ _ _)
    · exact hsingle (Filing.tellsLast_declaration _ _ _)
    · exact hsingle (Filing.tellsLast_declaration _ _ _)
    · exact hsingle (Filing.tellsLast_declaration _ _ _)
    · exact hsingle (Filing.tellsLast_exportAssignment _ _)
  | _ => cases hj

namespace Conversion

/-- A statement ends in the same way in every conversion and adds the same to it: what the sites of
the statement file, in document order and up to the first fault. Nothing that was there changes. A
declaration or an export assignment that fails leaves the conversion as it was. -/
theorem collectStatement_grows (statement : Json) (context : Text) :
    let filing := (statement.tour.statement context).forM Site.filing
    ∀ c : Conversion,
      let step := c.collectStatement statement context
      step.result = filing.result ∧
        c.Grows (.ofEntries filing.log) step.state ∧
        c.IsStartOf step.state ∧
        ∀ kind ∈ Filing.singleKinds, statement.get "kind" = .str kind →
          ∀ e, step.result = .error e → step.state = c := by
  intro filing c step
  have hstep : step = c.take filing := c.collectStatement_eq statement context
  rw [hstep]
  have hgrows := c.grows_enterAll filing.log
  refine ⟨rfl, hgrows, hgrows.isStartOf, fun kind hk hj e he => ?_⟩
  have hlog : filing.log = [] :=
    Json.tellsLast_of_singleKinds hk hj context e he
  rw [take, hlog]
  rfl

/-- A namespace with an interface, an import that is ignored and a class without a name, which
fails. What was filed before the fault stays; the class as a statement of its own leaves nothing. -/
theorem collectStatement_grows_failing_namespace :
    let unnamed := Json.obj [("kind", .str "ClassDeclaration")]
    let statement := Json.namespaceNode "NS" [
      .obj [("kind", .str "InterfaceDeclaration"), ("name", .identifier "I")],
      .obj [("kind", .str "ImportDeclaration")], unnamed]
    let c := pushNamespace {} "Outer"
    let step := c.collectStatement statement ModuleName.root
    let filed := ((statement.tour.statement ModuleName.root).forM Site.filing).log
    let fault := Fault.unnamed (some (.str "ClassDeclaration"))
    step.result = .error fault ∧
      filed.length = 4 ∧ c.Grows (.ofEntries filed) step.state ∧ c.IsStartOf step.state ∧
      step.state.namespaces = ["Outer", "NS"] ∧
      step.state.listing = "namespace-module:NS/interfaces/I#0" ∧
      step.state.log.records.map Diagnostic.message = ["Ignoring ImportDeclaration statement"] ∧
      (step.state.collectStatement unnamed ModuleName.root).result = .error fault ∧
      (step.state.collectStatement unnamed ModuleName.root).state = step.state := by
  intro unnamed statement c step filed fault
  obtain ⟨-, hgrows, hstart, -⟩ := collectStatement_grows statement ModuleName.root c
  obtain ⟨-, -, -, hsame⟩ := collectStatement_grows unnamed ModuleName.root step.state
  have hfault : (step.state.collectStatement unnamed ModuleName.root).result = .error fault := rfl
  exact ⟨rfl, rfl, hgrows, hstart, by decide +kernel, by decide +kernel, by decide +kernel, hfault,
    hsame "ClassDeclaration" (by decide) rfl _ hfault⟩

end Conversion
end Libdef
