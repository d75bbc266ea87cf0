import Libdef.Proofs.Declarators
import Libdef.Proofs.Listing
import Libdef.Proofs.Rearrangement

/-!
The names under which contexts are printed. A context name is that of the root, that of a
namespace, or one that is printed as it stands. Main statement: two contexts are printed under one
name only if one of them is the root and has been given the name of the other, or if one belongs to
a namespace and the other was called like its module. A namespace is printed under the name that it
is imported by, whatever the root is called.
-/

set_option autoImplicit false

namespace Libdef

namespace ModuleName

variable {rootName context : Text}

theorem namespaceOf?_eq_some_iff {ns : Text} :
    namespaceOf? context = some ns ↔ context = contextOf ns := by
  simp only [namespaceOf?, contextOf, Option.map_eq_some_iff]
  constructor
  · rintro ⟨rest, h, rfl⟩
    exact Text.toList_inj.mp (eq_append_of_after? h)
  · rintro rfl
    exact ⟨ns.toList, by rw [Text.toList_append, after?_append], by simp⟩

theorem contextOf_ne_root (ns : Text) : contextOf ns ≠ root := by
  intro h
  have hlist := congrArg Text.toList h
  simp [contextOf, contextMark, root] at hlist

theorem ofNamespace_ne_root (ns : Text) : ofNamespace ns ≠ root := by
  intro h
  have hlist := congrArg Text.toList h
  simp [ofNamespace, moduleMark, root] at hlist

theorem ofNamespace_ne_contextOf (ns ms : Text) : ofNamespace ns ≠ contextOf ms := by
  intro h
  have hlist := congrArg Text.toList h
  simp [ofNamespace, moduleMark, contextOf, contextMark] at hlist

theorem printed_root (rootName : Text) : printed rootName root = rootName := if_pos rfl

theorem printed_contextOf (rootName ns : Text) :
    printed rootName (contextOf ns) = ofNamespace ns := by
  rw [printed, if_neg (contextOf_ne_root ns), namespaceOf?_eq_some_iff.mpr rfl]

/-- A name that is neither that of the root nor that of a namespace context. -/
def Plain (context : Text) : Prop := context ≠ root ∧ ∀ ns, context ≠ contextOf ns

theorem Plain.printed_eq (h : Plain context) (rootName : Text) :
    printed rootName context = context := by
  have hnone : namespaceOf? context = none :=
    Option.eq_none_iff_forall_ne_some.mpr fun ns hs => h.2 ns (namespaceOf?_eq_some_iff.mp hs)
  rw [printed, if_neg h.1, hnone]

theorem plain_ofNamespace (ns : Text) : Plain (ofNamespace ns) :=
  ⟨ofNamespace_ne_root ns, ofNamespace_ne_contextOf ns⟩

theorem root_or_contextOf_or_plain (context : Text) :
    context = root ∨ (∃ ns, context = contextOf ns) ∨ Plain context := by
  by_cases hroot : context = root
  · exact .inl hroot
  · by_cases hns : ∃ ns, context = contextOf ns
    · exact .inr (.inl hns)
    · exact .inr (.inr ⟨hroot, not_exists.mp hns⟩)

/-- The one is the root and has the name of the other; or the one belongs to a namespace and the
other is called like its module. -/
def Takes (rootName one other : Text) : Prop :=
  one = root ∧ printed rootName other = rootName ∨
    ∃ ns, one = contextOf ns ∧ other = ofNamespace ns

def Clash (rootName a b : Text) : Prop := Takes rootName a b ∨ Takes rootName b a

theorem Takes.printed_eq {one other : Text} (h : Takes rootName one other) :
    printed rootName one = printed rootName other := by
  rcases h with ⟨rfl, hother⟩ | ⟨ns, rfl, rfl⟩
  · rw [printed_root, hother]
  · rw [printed_contextOf, (plain_ofNamespace ns).printed_eq]

theorem printed_eq_iff_clash {a b : Text} (hne : a ≠ b) :
    printed rootName a = printed rootName b ↔ Clash rootName a b := by
  refine ⟨fun h => ?_, fun h => h.elim Takes.printed_eq fun h => h.printed_eq.symm⟩
  rcases root_or_contextOf_or_plain a with rfl | ⟨ns, rfl⟩ | ha
  · rw [printed_root] at h
    exact .inl (.inl ⟨rfl, h.symm⟩)
  · rcases root_or_contextOf_or_plain b with rfl | ⟨ms, rfl⟩ | hb
    · exact .inr (.inl ⟨rfl, h.trans (printed_root rootName)⟩)
    · rw [printed_contextOf, printed_contextOf] at h
      exact absurd (congrArg contextOf (ofNamespace_inj h)) hne
    · rw [printed_contextOf, hb.printed_eq] at h
      exact .inl (.inr ⟨ns, rfl, h.symm⟩)
  · rcases root_or_contextOf_or_plain b with rfl | ⟨ms, rfl⟩ | hb
    · exact .inr (.inl ⟨rfl, h.trans (printed_root rootName)⟩)
    · rw [ha.printed_eq, printed_contextOf] at h
      exact .inr (.inr ⟨ms, rfl, h⟩)
    · rw [ha.printed_eq, hb.printed_eq] at h
      exact absurd h hne

end ModuleName

/-! Every namespace that a tree makes known has its context. -/

/-- Whenever a namespace is made known, so is its context. -/
def Site.Housed (sites : List Site) : Prop :=
  ∀ ns, .knownNamespace ns ∈ sites → .knownContext (ModuleName.contextOf ns) ∈ sites

namespace Site

theorem housed_nil : Housed [] := nofun

theorem housed_cons {site : Site} {rest : List Site} (hs : ∀ ns, site ≠ .knownNamespace ns)
    (h : Housed rest) : Housed (site :: rest) := by
  intro ns hns
  rcases List.mem_cons.mp hns with he | hns
  · exact absurd he.symm (hs ns)
  · exact List.mem_cons_of_mem _ (h ns hns)

theorem housed_singleton {site : Site} (hs : ∀ ns, site ≠ .knownNamespace ns) : Housed [site] :=
  housed_cons hs housed_nil

theorem housed_namespace (name : Text) {rest : List Site} (h : Housed rest) :
    Housed (.knownNamespace name :: .knownContext (ModuleName.contextOf name) :: rest) := by
  intro ns hns
  rcases List.mem_cons.mp hns with he | hns
  · cases he
    exact List.mem_cons_of_mem _ List.mem_cons_self
  · exact List.mem_cons_of_mem _ (housed_cons (by simp) h ns hns)

theorem housed_flatMap {α : Type} {l : List α} {f : α → List Site} (h : ∀ a ∈ l, Housed (f a)) :
    Housed (l.flatMap f) := by
  intro ns hns
  obtain ⟨a, ha, hns⟩ := List.mem_flatMap.mp hns
  exact List.mem_flatMap.mpr ⟨a, ha, h a ha ns hns⟩

end Site

namespace Tour

open Site

structure Housed (t : Tour) : Prop where
  statement : ∀ context, Site.Housed (t.statement context)
  block : ∀ context, Site.Housed (t.block context)
  statements : ∀ context, Site.Housed (t.statements context)
  module : ∀ context qualifier, Site.Housed (t.module context qualifier)

theorem housed_failing (fault : Fault) : (failing fault).Housed where
  statement _ := housed_singleton (by simp)
  block _ := housed_singleton (by simp)
  statements _ := housed_singleton (by simp)
  module _ _ := housed_singleton (by simp)

theorem housed_variableStatement (j : Json) (context : Text) :
    Site.Housed (variableStatement j context) := by
  -- Neither declarators nor malformed lists of them make a namespace known.
  have hnone : ∀ ns, .knownNamespace ns ∉ variableStatement j context := by
    intro ns
    simp only [variableStatement]
    split
    · split
      · cases (j.get "declarationList").get "declarations" <;>
          simp only [declarators] <;> (try split) <;> simp
      · simp
    · simp
  exact fun ns hns => absurd hns (hnone ns)

variable {body : Tour} (hbody : body.Housed)

include hbody

theorem housed_namespaceOf (inner : Json) (context name : Text) :
    Site.Housed (namespaceOf inner body context name) := by
  simp only [namespaceOf]
  split
  · exact housed_namespace name housed_nil
  · split
    · exact housed_singleton (by simp)
    · split
      · exact hbody.module context (some name)
      · exact housed_namespace name (hbody.block _)

theorem housed_plainModuleOf (inner : Json) (name : Text) :
    Site.Housed (plainModuleOf inner body name) := by
  refine housed_cons (by simp) ?_
  split
  · exact housed_nil
  · split
    · exact housed_singleton (by simp)
    · split
      · exact hbody.statement name
      · exact hbody.block name

theorem housed_moduleOf (j : Json) (context : Text) (qualifier : Option Text) :
    Site.Housed (moduleOf j body context qualifier) := by
  simp only [moduleOf]
  split
  · exact housed_singleton (by simp)
  · split
    · exact housed_singleton (by simp)
    · split
      · exact housed_singleton (by simp)
      · exact housed_namespaceOf hbody _ _ _
      · exact housed_plainModuleOf hbody _ _

omit hbody

theorem housed_statementOf (j : Json) {module : Option Text → List Site} (context : Text)
    (h : Site.Housed (module none)) : Site.Housed (statementOf j module context) := by
  simp only [statementOf]
  split
  · exact h
  · split
    · exact housed_singleton (by simp)
    · split
      · exact housed_singleton (by simp)
      · split
        · exact housed_variableStatement j context
        · split <;> exact housed_singleton (by simp)

theorem housed_statementsOf (j : Json) {items : List Tour} (h : ∀ item ∈ items, item.Housed)
    (context : Text) : Site.Housed (statementsOf j items context) := by
  cases j with
  | arr _ => exact housed_flatMap fun item hi => (h item hi).statement context
  | str _ | obj _ =>
    simp only [statementsOf]
    split
    · exact housed_nil
    · exact housed_singleton (by simp)
  | _ => exact housed_singleton (by simp)

theorem housed_step (j : Json) {items : List Tour} {field : Text → Option Tour}
    (hitems : ∀ item ∈ items, item.Housed) (hfield : ∀ key, ∀ t ∈ field key, t.Housed) :
    (step j items field).Housed := by
  have hpart (key : Text) : ((field key).getD (failing .noFields)).Housed := by
    cases hk : field key with
    | none => exact housed_failing _
    | some t => exact hfield key t hk
  have hstatements (context : Text) : Site.Housed ((step j items field).statements context) := by
    rw [step_statements]
    exact housed_statementsOf j hitems context
  cases j with
  | obj fields =>
    have hmodule := housed_moduleOf (hpart "body") (Json.obj fields)
    refine ⟨fun context => housed_statementOf _ context (hmodule context none), fun context => ?_,
      hstatements, hmodule⟩
    simp only [step, blockOf]
    split
    · exact housed_singleton (by simp)
    · exact (hpart "statements").statements context
  | _ => exact { housed_failing .noFields with statements := hstatements }

end Tour

theorem Json.housed_tour (j : Json) : j.tour.Housed := by
  induction j using Json.induct with
  | h j ih =>
    rw [tour_eq]
    refine Tour.housed_step j (fun t ht => ?_) (fun key t ht => ?_)
    · obtain ⟨i, hi, rfl⟩ := List.mem_map.mp ht
      exact ih i (mem_children_of_mem_items hi)
    · obtain ⟨i, hi, rfl⟩ := Option.map_eq_some_iff.mp ht
      exact ih i (mem_children_of_field? hi)

theorem housed_sitesOf (trees : List Json) : Site.Housed (sitesOf trees) :=
  Site.housed_flatMap fun tree _ => tree.housed_tour.block ModuleName.root

/-! The blocks of a file and the modules of its imports. -/

theorem Traced.yields_mapM_exists {ω α β γ : Type} [Inhabited β] (t : α → Traced ω β)
    (f : α → β → γ) (l : List α) :
    (l.mapM fun a => f a <$> t a).Yields fun cs => ∃ g : α → β, cs = l.map fun a => f a (g a) := by
  let g (a : α) : β := (t a).result.toOption.getD default
  have hg (a : α) : (f a <$> t a).Yields fun c => id c = f a (g a) := by
    rw [Yields, result_map]
    cases ht : (t a).result with
    | error e => trivial
    | ok b => simp [Except.map, Ends, g, ht, Except.toOption]
  refine Ends.imp (yields_mapM_map fun a _ => hg a) fun cs hcs => ⟨g, ?_⟩
  rwa [List.map_id] at hcs

namespace Conversion

open Traced

variable {options : Options} {trees : List Json} {c : Conversion} {text : Text}

theorem fileSheet_yields (h : c.WellFiled) :
    (Layout.render c.options.lineWidth <$> c.fileSheet).Yields fun text =>
      ∃ items : Context → List Text, text = Import.head c.imports.records ++
        Text.join "\n\n" (c.blocks.map fun x =>
          blockText c.options.rootModule x.name (items x)) ++ "\n" := by
  rw [fileSheet_eq_file h, Sheet.render_file, printedModules_eq h, List.mapM_map,
    Function.comp_def, mapM_congr fun x hx => render_block_moduleAt h (mem_blocks.mp hx).1,
    ← bind_pure_comp]
  refine (yields_mapM_exists _ _ _).bind fun texts htexts => yields_pure ?_
  obtain ⟨pieces, rfl⟩ := htexts
  exact ⟨fun x => (pieces x).map Prod.snd, rfl⟩

theorem exists_blocks_of_render (h : c.WellFiled) (htext : c.render.2 = .ok text) :
    ∃ items : Context → List Text, text = Import.head c.render.1.imports.records ++
      Text.join "\n\n" (c.render.1.blocks.map fun x =>
        blockText c.render.1.options.rootModule x.name (items x)) ++ "\n" := by
  have hresult : (Layout.render c.options.lineWidth <$> c.fileSheet).result = .ok text := by
    rw [result_map]
    exact htext
  exact (fileSheet_yields h).of_ok hresult

variable (h : convert options trees = .ok (c, text))

include h

theorem options_of_convert : c.options = options := by
  obtain ⟨-, -, hsame, -⟩ := of_convert_eq_ok h
  exact hsame.options.trans (enterAll_frame _ _).1

theorem exists_blocks_of_convert :
    ∃ items : Context → List Text, text = Import.head c.imports.records ++
      Text.join "\n\n" (c.blocks.map fun x => blockText options.rootModule x.name (items x)) ++
        "\n" := by
  have hoptions := options_of_convert h
  have hpass := ((convert_succeeds_iff options trees).mp ⟨_, h⟩).1
  rw [convert_of_pass options hpass] at h
  cases htext : (resolved options trees).render.2 with
  | error e =>
    rw [htext] at h
    cases h
  | ok text' =>
    rw [htext] at h
    cases h
    have hblocks := exists_blocks_of_render (wellFiled_resolved options trees) htext
    rwa [hoptions] at hblocks

theorem mem_namespaces_of_convert {ns : Text} :
    ns ∈ c.namespaces ↔ ns ∈ namespacesOf trees := by
  obtain ⟨hfiled, -, hsame, -⟩ := of_convert_eq_ok h
  rw [← isNamespace_collected hfiled options, isNamespace, hsame.namespaces]
  simp

theorem contextOf_mem_names {ns : Text} (hns : ns ∈ c.namespaces) :
    ModuleName.contextOf ns ∈ c.contexts.names := by
  obtain ⟨hfiled, -, hsame, -⟩ := of_convert_eq_ok h
  obtain ⟨site, hs, hsite⟩ := List.mem_filterMap.mp ((mem_namespaces_of_convert h).mp hns)
  obtain rfl : site = .knownNamespace ns := by
    cases site <;> simp_all [Site.namespace?]
  have hcontext := housed_sitesOf trees ns hs
  rw [hsame.contexts, collected, mem_names_enterAll]
  exact .inr ⟨_, (mem_log_sitesOf hfiled).mpr ⟨_, hcontext, rfl, .knownContext _⟩, rfl⟩

theorem names_nodup_of_convert : c.contexts.names.Nodup := by
  obtain ⟨-, -, hsame, -⟩ := of_convert_eq_ok h
  exact (hsame.wellFiled (wellFiled_collected options trees)).lists.nodup

end Conversion

open ModuleName in
/-- Different contexts clash exactly as said, and so do the blocks of a file, no two of which are
of one context. A namespace that the trees make known has a context. Whatever the root is called,
that is printed under the name that the namespace is imported by, and there are no imports by other
names. -/
theorem moduleNames_clash {options : Options} {trees : List Json} {c : Conversion} {text : Text}
    (h : Conversion.convert options trees = .ok (c, text)) :
    (∀ rootName a b, a ≠ b → (printed rootName a = printed rootName b ↔ Clash rootName a b)) ∧
    (∃ items : Context → List Text, text = Import.head c.imports.records ++
      Text.join "\n\n" (c.blocks.map fun x => blockText options.rootModule x.name (items x)) ++
        "\n") ∧
    c.contexts.names.Nodup ∧
    (c.blocks.Pairwise fun x y => x.name ≠ y.name ∧
      (printed options.rootModule x.name = printed options.rootModule y.name ↔
        Clash options.rootModule x.name y.name)) ∧
    (∀ ns ∈ c.namespaces, contextOf ns ∈ c.contexts.names ∧ ∀ rootName,
      printed rootName (contextOf ns) = ofNamespace ns ∧
      ((∃ i ∈ c.imports.records, i.module = printed rootName (contextOf ns)) ↔
        AskedFor trees ns)) ∧
    ∀ i ∈ c.imports.records, ∃ ns ∈ c.namespaces, ∀ rootName,
      i.module = printed rootName (contextOf ns) := by
  have hnames := Conversion.names_nodup_of_convert h
  refine ⟨fun _ _ _ => printed_eq_iff_clash, Conversion.exists_blocks_of_convert h, hnames, ?_,
    fun ns hns => ⟨Conversion.contextOf_mem_names h hns, fun rootName => ?_⟩, fun i hi => ?_⟩
  · have hapart : c.contexts.list.Pairwise fun x y => x.name ≠ y.name := List.pairwise_map.mp hnames
    exact (hapart.sublist List.filter_sublist).imp fun hne => ⟨hne, printed_eq_iff_clash hne⟩
  · rw [printed_contextOf]
    refine ⟨rfl, ?_, Conversion.exists_record h⟩
    rintro ⟨i, hi, hm⟩
    obtain ⟨ms, hms, hasked⟩ := Conversion.namespace_of_mem_records h hi
    rwa [ofNamespace_inj (hm.symm.trans hms)]
  · obtain ⟨ns, hm, hasked⟩ := Conversion.namespace_of_mem_records h hi
    refine ⟨ns, (Conversion.mem_namespaces_of_convert h).mpr hasked.mem_namespacesOf,
      fun rootName => ?_⟩
    rw [hm, printed_contextOf]

open ModuleName in
/-- A namespace, a module that is called like the module of the namespace, and a root that has been
given the same name. -/
theorem moduleNames_clash_threefold :
    let name := ofNamespace "Foo"
    let bar := Json.obj [("kind", .str "InterfaceDeclaration"), ("name", .identifier "Bar")]
    let module := Json.obj [("kind", .str "ModuleDeclaration"), ("name", .identifier name),
      ("flags", .int 0), ("body", .obj [("kind", .str "ModuleBlock"), ("statements", .arr [bar])])]
    let trees := [Json.sourceFile [bar, .namespaceNode "Foo" [bar], module,
      .variableNode "x" (.qualifiedName "Foo" "Bar")]]
    ∃ c text, Conversion.convert { rootModule := name } trees = .ok (c, text) ∧
      c.blocks.map Context.name = [root, contextOf "Foo", name] ∧
      (c.blocks.Pairwise fun x y => Clash name x.name y.name) ∧
      AskedFor trees "Foo" := by
  intro name bar module trees
  have hblocks : (Conversion.convert { rootModule := name } trees).toOption.map (fun result =>
      (result.1.blocks.map Context.name, result.1.namespaces,
        result.1.imports.records.map Import.module)) =
      some ([root, contextOf "Foo", name], [("Foo" : Text)], [name]) := by decide +kernel
  obtain ⟨⟨c, text⟩, h, hread⟩ := exists_ok_of_map hblocks
  simp only [Prod.mk.injEq] at hread
  obtain ⟨hnames, hnamespaces, hmodules⟩ := hread
  obtain ⟨-, -, -, hpairs, hns, -⟩ := moduleNames_clash h
  have hprinted : ∀ x ∈ c.blocks, printed name x.name = name := by
    intro x hx
    have hx := List.mem_map_of_mem (f := Context.name) hx
    rw [hnames] at hx
    simp only [List.mem_cons, List.not_mem_nil, or_false] at hx
    rcases hx with hx | hx | hx <;> rw [hx] <;> decide
  refine ⟨c, text, h, hnames, ?_, ?_⟩
  · refine hpairs.imp_of_mem fun {x y} hx hy hxy => hxy.2.mp ?_
    exact (hprinted x hx).trans (hprinted y hy).symm
  · have hmem : name ∈ c.imports.records.map Import.module := by simp [hmodules]
    obtain ⟨i, hi, hm⟩ := List.mem_map.mp hmem
    obtain ⟨-, hiff⟩ := hns "Foo" (by simp [hnamespaces])
    exact (hiff name).2.mp ⟨i, hi, hm.trans (by decide)⟩

end Libdef
