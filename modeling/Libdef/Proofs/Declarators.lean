import Mathlib.Data.List.Basic
import Libdef.Proofs.Collection
import Libdef.Proofs.Linking

set_option autoImplicit false

namespace Libdef

namespace Text

theorem split_dotted (q : Text) {v : Text} (h : CodePoint.char '.' ∉ v.toList) :
    split '.' (q ++ "." ++ v) = split '.' q ++ [v] :=
  split_concat q h

theorem plain_or_dotted (t : Text) :
    CodePoint.char '.' ∉ t.toList ∨ ∃ q v, t = q ++ "." ++ v ∧ CodePoint.char '.' ∉ v.toList := by
  by_cases h : CodePoint.char '.' ∈ t.toList
  · obtain ⟨as, bs, hab, has⟩ := List.eq_append_cons_of_mem (List.mem_reverse.mpr h)
    refine .inr ⟨.ofList bs.reverse, .ofList as.reverse, ?_, by simpa using has⟩
    apply Text.toList_inj.mp
    rw [← List.reverse_reverse t.toList, hab]
    simp
  · exact .inl h

end Text

namespace Filing

theorem variableOf_plain (name : Text) {t : Text} (h : CodePoint.char '.' ∉ t.toList) :
    variableOf name (Text.split '.' t) = { name, value := t, qualifier := ModuleName.root } := by
  simp [variableOf, Text.split_of_not_mem h]

theorem variableOf_dotted (name q : Text) {v : Text} (h : CodePoint.char '.' ∉ v.toList) :
    variableOf name (Text.split '.' (q ++ "." ++ v)) = { name, value := v, qualifier := q } := by
  have hne : Text.split '.' q ≠ [] := by simp [Text.split, Text.pieces_ne_nil]
  have hjoin : Text.join "." (Text.split '.' q) = q := Text.join_split '.' q
  simp [variableOf, Text.split_dotted q h, hne, hjoin]

end Filing

/-! The forms in which namespaces and declarators stand in a tree. -/

namespace Json

def identifier (name : Text) : Json := .obj [("kind", .str "Identifier"), ("text", .str name)]

def qualifiedName (left right : Text) : Json :=
  .obj [("kind", .str "QualifiedName"), ("left", identifier left), ("right", identifier right)]

def namespaceNode (name : Text) (statements : List Json) : Json :=
  .obj [("kind", .str "ModuleDeclaration"), ("name", identifier name), ("flags", .int 16),
    ("body", .obj [("kind", .str "ModuleBlock"), ("statements", .arr statements)])]

def variableNode (name : Text) (typeName : Json) : Json :=
  let type := .obj [("kind", .str "TypeReference"), ("typeName", typeName)]
  let declarator := .obj [("kind", .str "VariableDeclaration"), ("name", identifier name),
    ("type", type)]
  .obj [("kind", .str "VariableStatement"),
    ("declarationList", .obj [("declarations", .arr [declarator])])]

def sourceFile (statements : List Json) : Json :=
  .obj [("kind", .str "SourceFile"), ("statements", .arr statements)]

end Json

/-! What single sites file. -/

def bothNames (name type : Option Text) : Option (Text × Text) :=
  match name, type with
  | some name, some type => if name = "" ∨ type = "" then none else some (name, type)
  | _, _ => none

/-- The name of a declarator and the dotted name of its type, if it has both. -/
def Json.declared? (j : Json) : Option (Text × Text) :=
  match (j.get "name").nameText, (j.get "type").referencedName.bind nameText with
  | .ok name, .ok type => bothNames name type
  | _, _ => none

def Json.exported? (j : Json) : Option Text :=
  match (j.get "expression").nameText with
  | .ok (some name) => if name = "" then none else some name
  | _ => none

namespace Site

def declared? : Site → Option (Text × Text)
  | .declarator j _ => j.declared?
  | _ => none

def namespace? : Site → Option Text
  | .knownNamespace name => some name
  | _ => none

def printedIn? : Site → Option Text
  | .declaration _ _ context => some context
  | .exportAssignment j context => j.exported?.map fun _ => context
  | _ => none

inductive Files : Site → Entry → Prop where
  | declaration (j : Json) (bucket : Bucket) (context : Text) (node : Node) :
      Files (.declaration j bucket context) (.item (.declaration node) context bucket)
  | declarator {j : Json} {name type : Text} (context : Text)
      (h : j.declared? = some (name, type)) :
      Files (.declarator j context)
        (.item (.variable (Filing.variableOf name (Text.split '.' type))) context .variables)
  | dropped {j : Json} (context : Text) (h : j.declared? = none) (d : Diagnostic) :
      Files (.declarator j context) (.report d)
  | exportAssignment {j : Json} {name : Text} (context : Text) (h : j.exported? = some name) :
      Files (.exportAssignment j context)
        (.item (.export { name, isDefault := true }) context .exports)
  | unnamedExport {j : Json} (context : Text) (h : j.exported? = none) (d : Diagnostic) :
      Files (.exportAssignment j context) (.report d)
  | other (j : Json) (context : Text) (d : Diagnostic) : Files (.other j context) (.report d)
  | unnamedModule (context : Text) (d : Diagnostic) : Files (.unnamedModule context) (.report d)
  | knownNamespace (name : Text) : Files (.knownNamespace name) (.knownNamespace name)
  | knownContext (name : Text) : Files (.knownContext name) (.knownContext name)

theorem files_declarator {j : Json} {context : Text}
    (hok : (declarator j context).filing.result = .ok ()) :
    ∃ entry, (declarator j context).filing = Traced.tell entry ∧
      Files (declarator j context) entry := by
  -- What went through has a name and a type that can be read; either may still be empty or absent.
  simp only [filing, Filing.variableDeclaration] at hok ⊢
  split at hok
  · cases hok
  rename_i ho
  rw [if_neg ho]
  obtain ⟨name, hname, heq⟩ := Traced.lift_bind_of_ok hok
  rw [heq] at hok ⊢
  obtain ⟨ref, href, heq⟩ := Traced.lift_bind_of_ok hok
  rw [heq] at hok ⊢
  obtain ⟨parts, hparts, heq⟩ := Traced.lift_bind_of_ok hok
  rw [heq]
  cases htype : ref.nameText with
  | error e => simp [Json.nameParts, htype, Bind.bind, Except.bind] at hparts
  | ok type =>
    have hdeclared : j.declared? = bothNames name type := by
      simp only [Json.declared?, hname, href, Except.bind, htype]
    simp only [Json.nameParts, htype, Bind.bind, Except.bind] at hparts
    cases type with
    | none =>
      cases hparts
      exact ⟨_, rfl, .dropped context (by rw [hdeclared]; cases name <;> rfl) _⟩
    | some type =>
      by_cases ht : type = ""
      · simp only [ht, if_true] at hparts
        cases hparts
        exact ⟨_, rfl, .dropped context (by rw [hdeclared]; cases name <;> simp [bothNames, ht]) _⟩
      · simp only [ht, if_false] at hparts
        cases hparts
        cases name with
        | none => exact ⟨_, rfl, .dropped context hdeclared _⟩
        | some name =>
          by_cases hn : name = ""
          · simp only [Option.getD_some, hn, if_true]
            exact ⟨_, rfl, .dropped context (by simp [hdeclared, bothNames, hn]) _⟩
          · simp only [Option.getD_some, hn, if_false]
            exact ⟨_, rfl, .declarator context (by simp [hdeclared, bothNames, hn, ht])⟩

theorem files_exportAssignment {j : Json} {context : Text}
    (hok : (exportAssignment j context).filing.result = .ok ()) :
    ∃ entry, (exportAssignment j context).filing = Traced.tell entry ∧
      Files (exportAssignment j context) entry := by
  simp only [filing, Filing.exportAssignment] at hok ⊢
  obtain ⟨name, hname, heq⟩ := Traced.lift_bind_of_ok hok
  rw [heq]
  cases name with
  | none => exact ⟨_, rfl, .unnamedExport context (by simp [Json.exported?, hname]) _⟩
  | some name =>
    by_cases hn : name = ""
    · simp only [Option.getD_some, hn, if_true]
      exact ⟨_, rfl, .unnamedExport context (by simp [Json.exported?, hname, hn]) _⟩
    · simp only [Option.getD_some, hn, if_false]
      exact ⟨_, rfl, .exportAssignment context (by simp [Json.exported?, hname, hn])⟩

theorem files_of_ok {site : Site} (hok : site.filing.result = .ok ()) :
    ∃ entry, site.filing = Traced.tell entry ∧ site.Files entry := by
  cases site with
  | declaration j bucket context =>
    obtain ⟨node, -, heq⟩ := Traced.lift_bind_of_ok hok
    exact ⟨_, heq, .declaration j bucket context node⟩
  | declarator j context => exact files_declarator hok
  | exportAssignment j context => exact files_exportAssignment hok
  | other j context =>
    obtain ⟨name, -, heq⟩ := Traced.lift_bind_of_ok hok
    exact ⟨_, heq, .other j context _⟩
  | unnamedModule context => exact ⟨_, rfl, .unnamedModule context _⟩
  | knownNamespace name => exact ⟨_, rfl, .knownNamespace name⟩
  | knownContext name => exact ⟨_, rfl, .knownContext name⟩
  | unlisted j => cases hok
  | malformed fault => cases hok

end Site

/-! What whole trees file. -/

def declaredOf (trees : List Json) : List (Text × Text) :=
  (sitesOf trees).filterMap Site.declared?

def namespacesOf (trees : List Json) : List Text := (sitesOf trees).filterMap Site.namespace?

def printedContexts (trees : List Json) : List Text := (sitesOf trees).filterMap Site.printedIn?

section

variable {trees : List Json} (hok : ((sitesOf trees).forM Site.filing).result = .ok ())

include hok

theorem mem_log_sitesOf {entry : Entry} :
    entry ∈ ((sitesOf trees).forM Site.filing).log ↔
      ∃ site ∈ sitesOf trees, site.filing = Traced.tell entry ∧ site.Files entry := by
  have hall := Traced.result_forM_eq_ok_iff.mp hok
  rw [Traced.log_forM_of_ok hall, List.mem_flatMap]
  constructor
  · rintro ⟨site, hs, he⟩
    obtain ⟨entry', heq, hf⟩ := Site.files_of_ok (hall site hs)
    rw [heq, Traced.log_tell, List.mem_singleton] at he
    subst he
    exact ⟨site, hs, heq, hf⟩
  · rintro ⟨site, hs, heq, -⟩
    exact ⟨site, hs, by simp [heq]⟩

theorem mem_namespacesOf {ns : Text} :
    .knownNamespace ns ∈ ((sitesOf trees).forM Site.filing).log ↔ ns ∈ namespacesOf trees := by
  simp only [mem_log_sitesOf hok, namespacesOf, List.mem_filterMap]
  constructor
  · rintro ⟨site, hs, -, hf⟩
    cases hf
    exact ⟨_, hs, rfl⟩
  · rintro ⟨site, hs, hn⟩
    cases site with
    | knownNamespace name =>
      cases hn
      exact ⟨_, hs, rfl, .knownNamespace ns⟩
    | _ => cases hn

theorem mem_declaredOf {v : Variable} :
    (∃ context, .item (.variable v) context .variables ∈ ((sitesOf trees).forM Site.filing).log) ↔
      ∃ name type, (name, type) ∈ declaredOf trees ∧
        v = Filing.variableOf name (Text.split '.' type) := by
  simp only [mem_log_sitesOf hok, declaredOf, List.mem_filterMap]
  constructor
  · rintro ⟨context, site, hs, -, hf⟩
    cases hf with
    | declarator _ hd => exact ⟨_, _, ⟨_, hs, hd⟩, rfl⟩
  · rintro ⟨name, type, ⟨site, hs, hd⟩, rfl⟩
    cases site with
    | declarator j context =>
      have hall := Traced.result_forM_eq_ok_iff.mp hok
      obtain ⟨entry, heq, hf⟩ := Site.files_of_ok (hall _ hs)
      refine ⟨context, _, hs, ?_⟩
      cases hf with
      | declarator _ hd' =>
        cases hd.symm.trans hd'
        exact ⟨heq, .declarator context hd⟩
      | dropped _ hn => cases hd.symm.trans hn
    | _ => cases hd

theorem mem_printedContexts {x : Text} :
    (∃ b, b ≠ .variables ∧ ∃ item, .item item x b ∈ ((sitesOf trees).forM Site.filing).log) ↔
      x ∈ printedContexts trees := by
  have hall := Traced.result_forM_eq_ok_iff.mp hok
  simp only [mem_log_sitesOf hok, printedContexts, List.mem_filterMap]
  constructor
  · rintro ⟨b, hb, item, site, hs, -, hf⟩
    cases hf with
    | declaration j _ _ node => exact ⟨_, hs, rfl⟩
    | declarator => exact (hb rfl).elim
    | exportAssignment _ he => exact ⟨_, hs, by simp [Site.printedIn?, he]⟩
  · rintro ⟨site, hs, hx⟩
    obtain ⟨entry, heq, hf⟩ := Site.files_of_ok (hall site hs)
    cases hf with
    | declaration j bucket context node =>
      cases hx
      -- Only the way a tour is built says that no declaration goes to the variables.
      obtain ⟨tree, -, ht⟩ := List.mem_flatMap.mp hs
      have hsound := (tree.tour_sound.1 (.inl fun _ _ => trivial)).block _ _ ht
      have hb := (Filing.of_declarationBucket? hsound.2).1.1
      exact ⟨bucket, hb, _, _, hs, heq, .declaration j bucket x node⟩
    | exportAssignment context he =>
      simp only [Site.printedIn?, he, Option.map_some, Option.some.injEq] at hx
      subst hx
      exact ⟨.exports, by decide, _, _, hs, heq, .exportAssignment _ he⟩
    | unnamedExport context he => simp [Site.printedIn?, he] at hx
    | _ => cases hx

namespace Conversion

theorem isNamespace_collected (options : Options) {ns : Text} :
    (collected options trees).isNamespace ns = true ↔ ns ∈ namespacesOf trees := by
  simp only [isNamespace, List.contains_eq_mem, decide_eq_true_eq, collected,
    mem_namespaces_enterAll, mem_namespacesOf hok, List.not_mem_nil, false_or]

theorem hasVariable_collected (options : Options) {v : Variable} :
    (collected options trees).HasVariable v ↔ ∃ name type, (name, type) ∈ declaredOf trees ∧
      v = Filing.variableOf name (Text.split '.' type) := by
  rw [← mem_declaredOf hok]
  simp only [HasVariable, mem_itemsAt_collected]

theorem prints_collected (options : Options) {x : Text} :
    (∃ b, b ≠ .variables ∧ ∃ item, item ∈ (collected options trees).store.itemsAt x b) ↔
      x ∈ printedContexts trees := by
  rw [← mem_printedContexts hok]
  simp only [mem_itemsAt_collected]

end Conversion
end

namespace Conversion

theorem convert_inv {options : Options} {trees : List Json} {c : Conversion} {text : Text}
    (h : convert options trees = .ok (c, text)) :
    ((sitesOf trees).forM Site.filing).result = .ok () ∧
      (collected options trees).resolve.result = .ok () ∧
      c = (collected options trees).resolve.state.render.1 := by
  cases hfiled : ((sitesOf trees).forM Site.filing).result with
  | error e =>
    rw [convert_of_error options hfiled] at h
    cases h
  | ok u =>
    rw [convert_of_ok options hfiled] at h
    cases hr : (collected options trees).resolve.result with
    | error e =>
      simp only [hr] at h
      cases h
    | ok u =>
      cases ht : (collected options trees).resolve.state.render.2 with
      | error e =>
        simp only [hr, ht] at h
        cases h
      | ok text' =>
        simp only [hr, ht] at h
        cases h
        exact ⟨rfl, rfl, rfl⟩

theorem of_convert_eq_ok {options : Options} {trees : List Json} {c : Conversion} {text : Text}
    (h : convert options trees = .ok (c, text)) :
    ((sitesOf trees).forM Site.filing).result = .ok () ∧
      (collected options trees).link.result = .ok () ∧ SameFiling (collected options trees) c ∧
      c.imports.Answers (collected options trees).link.log := by
  obtain ⟨hfiled, hresolved, rfl⟩ := convert_inv h
  have hkeeps := resolve_keeps (wellFiled_collected options trees)
    (fits_of_tolerant (Q := fun _ => True) _ (fun _ _ => trivial) trivial)
  obtain ⟨hsame, himports, -⟩ := hkeeps.state
  have hgrants := ((collected options trees).grants_frame (collected options trees).link.log).1
  refine ⟨hfiled, Step.result_of_andThen hresolved, ?_, ?_⟩
  · exact (hgrants.trans hsame).trans ⟨rfl, rfl, rfl, rfl⟩
  · have hempty : (collected options trees).imports.Answers [] := by
      rw [collected, (enterAll_frame _ _).2]
      exact .empty
    have hanswers := answers_grants hempty (collected options trees).link.log
    rw [← himports] at hanswers
    exact hanswers

end Conversion

/-! What the trees ask to be imported. -/

/-- A declarator has the type `ns.v`; or it has the type `v`, which counts as one of the root. -/
def AsksName (trees : List Json) (ns v : Text) : Prop :=
  ns ∈ namespacesOf trees ∧ CodePoint.char '.' ∉ v.toList ∧
    ∃ name type, (name, type) ∈ declaredOf trees ∧
    (type = ns ++ "." ++ v ∨ ns = ModuleName.root ∧ type = v)

/-- A declarator `d` has the type `ns`, or a type that ends in it after something that is no
namespace. -/
def AsksBinding (trees : List Json) (ns d : Text) : Prop :=
  ns ∈ namespacesOf trees ∧ CodePoint.char '.' ∉ ns.toList ∧ ∃ type, (d, type) ∈ declaredOf trees ∧
    (type = ns ∧ ModuleName.root ∉ namespacesOf trees ∨
      ∃ q, type = q ++ "." ++ ns ∧ q ∉ namespacesOf trees)

/-- Some declarator makes the namespace be imported from. -/
def AskedFor (trees : List Json) (ns : Text) : Prop :=
  (∃ v, AsksName trees ns v) ∨ ∃ d, AsksBinding trees ns d

theorem AskedFor.mem_namespacesOf {trees : List Json} {ns : Text} (h : AskedFor trees ns) :
    ns ∈ namespacesOf trees := by
  rcases h with ⟨v, hv⟩ | ⟨d, hd⟩
  · exact hv.1
  · exact hd.1

namespace Conversion

variable {options : Options} {trees : List Json} {c : Conversion} {text : Text}
  (h : convert options trees = .ok (c, text))

include h

theorem name_mem_link_collected {n ns : Text} :
    .name n (ModuleName.ofNamespace ns) ∈ (collected options trees).link.log ↔
      AsksName trees ns n := by
  obtain ⟨hfiled, hlinked, -⟩ := of_convert_eq_ok h
  rw [name_mem_link (wellFiled_collected options trees) hlinked, isNamespace_collected hfiled]
  simp only [AsksName, hasVariable_collected hfiled]
  refine and_congr_right fun _ => ⟨?_, ?_⟩
  · rintro ⟨v, ⟨name, type, hd, rfl⟩, hq, hv⟩
    rcases Text.plain_or_dotted type with ht | ⟨q, w, rfl, hw⟩
    · rw [Filing.variableOf_plain name ht] at hq hv
      obtain ⟨rfl, rfl⟩ : ModuleName.root = ns ∧ type = n := ⟨hq, hv⟩
      exact ⟨ht, name, _, hd, .inr ⟨rfl, rfl⟩⟩
    · rw [Filing.variableOf_dotted name q hw] at hq hv
      obtain ⟨rfl, rfl⟩ : q = ns ∧ w = n := ⟨hq, hv⟩
      exact ⟨hw, name, _, hd, .inl rfl⟩
  · rintro ⟨hn, name, type, hd, rfl | ⟨rfl, rfl⟩⟩
    · exact ⟨_, ⟨name, _, hd, rfl⟩, by simp [Filing.variableOf_dotted name ns hn]⟩
    · exact ⟨_, ⟨name, _, hd, rfl⟩, by simp [Filing.variableOf_plain name hn]⟩

theorem binding_mem_link_collected {d ns : Text} :
    .binding d (ModuleName.ofNamespace ns) ∈ (collected options trees).link.log ↔
      AsksBinding trees ns d := by
  obtain ⟨hfiled, hlinked, -⟩ := of_convert_eq_ok h
  have hnot (q : Text) : (collected options trees).isNamespace q = false ↔
      q ∉ namespacesOf trees := by
    rw [← isNamespace_collected hfiled options, Bool.not_eq_true]
  rw [binding_mem_link (wellFiled_collected options trees) hlinked, isNamespace_collected hfiled]
  simp only [AsksBinding, hasVariable_collected hfiled, hnot]
  refine and_congr_right fun _ => ⟨?_, ?_⟩
  · rintro ⟨v, ⟨name, type, hd, rfl⟩, hq, hv, hn⟩
    rcases Text.plain_or_dotted type with ht | ⟨q, w, rfl, hw⟩
    · rw [Filing.variableOf_plain name ht] at hq hv hn
      obtain ⟨rfl, rfl⟩ : type = ns ∧ name = d := ⟨hv, hn⟩
      exact ⟨ht, _, hd, .inl ⟨rfl, hq⟩⟩
    · rw [Filing.variableOf_dotted name q hw] at hq hv hn
      obtain ⟨rfl, rfl⟩ : w = ns ∧ name = d := ⟨hv, hn⟩
      exact ⟨hw, _, hd, .inr ⟨q, rfl, hq⟩⟩
  · rintro ⟨hns, type, hd, ⟨rfl, hroot⟩ | ⟨q, rfl, hq⟩⟩
    · refine ⟨_, ⟨d, _, hd, rfl⟩, ?_⟩
      simpa [Filing.variableOf_plain d hns] using hroot
    · refine ⟨_, ⟨d, _, hd, rfl⟩, ?_⟩
      simpa [Filing.variableOf_dotted d q hns] using hq

theorem namespace_of_mem_records {i : Import} (hi : i ∈ c.imports.records) :
    ∃ ns, i.module = ModuleName.ofNamespace ns ∧ AskedFor trees ns := by
  obtain ⟨-, hlinked, -, hanswers⟩ := of_convert_eq_ok h
  obtain ⟨request, hr, hm⟩ := (hanswers.mem_modules i.module).mp (List.mem_map_of_mem hi)
  obtain ⟨ns, hns⟩ := module_of_mem_link (wellFiled_collected options trees) hlinked hr hm
  refine ⟨ns, hns, ?_⟩
  cases request with
  | name v m =>
    cases hm
    exact .inl ⟨v, (name_mem_link_collected h).mp (hns ▸ hr)⟩
  | binding d m =>
    cases hm
    exact .inr ⟨d, (binding_mem_link_collected h).mp (hns ▸ hr)⟩
  | report d => cases hm

theorem exists_record {ns : Text} (hasked : AskedFor trees ns) :
    ∃ i ∈ c.imports.records, i.module = ModuleName.ofNamespace ns := by
  obtain ⟨-, -, -, hanswers⟩ := of_convert_eq_ok h
  refine List.mem_map.mp ((hanswers.mem_modules _).mpr ?_)
  rcases hasked with ⟨v, hv⟩ | ⟨d, hd⟩
  · exact ⟨_, (name_mem_link_collected h).mpr hv, rfl⟩
  · exact ⟨_, (binding_mem_link_collected h).mpr hd, rfl⟩

end Conversion
end Libdef
