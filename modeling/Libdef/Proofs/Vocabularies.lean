import Libdef.Proofs.Degraded

set_option autoImplicit false

namespace Libdef

def Node.IsDeclarationFree (n : Node) : Prop := ∀ h ∈ n.heads, h.kind.isDeclaration = false

instance (n : Node) : Decidable n.IsDeclarationFree :=
  inferInstanceAs (Decidable (∀ h ∈ n.heads, _ = false))

inductive PrintRequest where
  | type (node : Option Node)
  | generics (nodes : List Node)
  | parameter (node : Node)
  | signature (node : Node) (asDeclaration : Bool)
  | body (node : Node) (withSemicolons : Bool)

namespace PrintRequest

def sheet (vocabulary : Vocabulary) : PrintRequest → Sheet
  | .type node => Sheet.typeOrAny (node.map (Node.printed vocabulary))
  | .generics nodes => Sheet.generics (nodes.map (Node.printed vocabulary))
  | .parameter node => Sheet.parameter (node.parts vocabulary)
  | .signature node asDeclaration => Sheet.signature (node.parts vocabulary) asDeclaration
  | .body node withSemicolons => Sheet.body (node.parts vocabulary) withSemicolons

/-- The trees that are printed by their kinds. The last three requests are answered for a node of
any kind, from its parts. -/
def trees : PrintRequest → List Node
  | .type node => node.toList
  | .generics nodes => nodes
  | .parameter node | .signature node _ | .body node _ => node.shape.parts

end PrintRequest

namespace Sheet

/-- The vocabulary is asked about declarations only. -/
theorem print_of_isDeclaration_eq_false {s : Shape Printed} (h : s.kind.isDeclaration = false)
    (v w : Vocabulary) : print v s = print w s := by
  have hsheet : ofShape v s = ofShape w s := by
    simp only [ofShape]
    cases hk : s.kind with
    | functionDeclaration | interfaceDeclaration | classDeclaration | typeAliasDeclaration =>
      rw [hk] at h
      cases h
    | _ => rfl
  simp only [print, hsheet]

end Sheet

namespace Node

theorem IsDeclarationFree.of_mem_parts {n m : Node} (h : n.IsDeclarationFree)
    (hm : m ∈ n.shape.parts) : m.IsDeclarationFree := by
  intro head hh
  apply h
  rw [heads_eq]
  exact List.mem_cons_of_mem _ (List.mem_flatMap.mpr ⟨m, hm, hh⟩)

theorem IsDeclarationFree.printed_eq {n : Node} (h : n.IsDeclarationFree) (v w : Vocabulary) :
    n.printed v = n.printed w := by
  induction n using Node.induct with
  | h n ih =>
    have hparts : n.parts v = n.parts w := Shape.map_congr fun m hm => ih m hm (h.of_mem_parts hm)
    have hkind : (n.parts w).kind.isDeclaration = false := by
      apply h n.head
      rw [heads_eq]
      exact List.mem_cons_self
    rw [Node.printed_eq, Node.printed_eq, hparts, Sheet.print_of_isDeclaration_eq_false hkind]

theorem parts_eq_of_declarationFree {n : Node} (h : ∀ m ∈ n.shape.parts, m.IsDeclarationFree)
    (v w : Vocabulary) : n.parts v = n.parts w :=
  Shape.map_congr fun m hm => (h m hm).printed_eq v w

end Node

namespace PrintRequest

/-- Where no declaration is below, both vocabularies give the same text at every line width and
make the same reports, or they end in the same fault after the same reports. -/
theorem vocabularies_agree {request : PrintRequest}
    (h : ∀ n ∈ request.trees, n.IsDeclarationFree) (width : Int) :
    Layout.render width <$> request.sheet .types =
      Layout.render width <$> request.sheet .declarations := by
  have hsheet : request.sheet .types = request.sheet .declarations := by
    cases request with
    | type node =>
      have hnode : node.map (Node.printed .types) = node.map (Node.printed .declarations) := by
        cases node with
        | none => rfl
        | some n => exact congrArg some ((h n (by simp [trees])).printed_eq _ _)
      rw [sheet, sheet, hnode]
    | generics nodes =>
      have hnodes : nodes.map (Node.printed .types) = nodes.map (Node.printed .declarations) :=
        List.map_congr_left fun n hn => (h n hn).printed_eq _ _
      rw [sheet, sheet, hnodes]
    | parameter node => rw [sheet, sheet, Node.parts_eq_of_declarationFree h _ .declarations]
    | signature node _ => rw [sheet, sheet, Node.parts_eq_of_declarationFree h _ .declarations]
    | body node _ => rw [sheet, sheet, Node.parts_eq_of_declarationFree h _ .declarations]
  rw [hsheet]

/-- The signature of a function, itself a declaration, with a parameter whose type lists a literal
and a node without a printed form. As a whole the function is a placeholder among types. -/
theorem vocabularies_agree_signature :
    let literal := Node.mk { kind := .literalType, text := some (.str "on") }
    let union := Node.mk { kind := .unionType, types := [literal, .mk { kind := .unsupported }] }
    let parameter := Node.mk { kind := .parameter, name := some "state", type := some union }
    let f := Node.mk { kind := .functionDeclaration, name := some "set", parameters := [parameter] }
    let signature := PrintRequest.signature f true
    (∀ n ∈ signature.trees, n.IsDeclarationFree) ∧ ¬f.IsDeclarationFree ∧
      Layout.render 20 <$> signature.sheet .types =
        Layout.render 20 <$> signature.sheet .declarations ∧
      (signature.sheet .types).log.length = 1 ∧
      (Layout.render 20 <$> signature.sheet .types).result.toOption =
        some "(\n\t\tstate: \x22on\x22 | NO PRINT IMPLEMENTED: Unsupported\n\t): any" ∧
      (Layout.render 20 <$> (PrintRequest.type (some f)).sheet .types).result.toOption =
        some "NO PRINT IMPLEMENTED: FunctionDeclaration" := by
  intro literal union parameter f signature
  have hfree : ∀ n ∈ signature.trees, n.IsDeclarationFree := by decide +kernel
  exact ⟨hfree, by decide +kernel, vocabularies_agree hfree 20, by decide +kernel,
    by decide +kernel, by decide +kernel⟩

end PrintRequest
end Libdef
