import Libdef.Proofs.Outcome
import Libdef.Sheet.Node

/-!
Private members. A property or a method that is declared private prints nothing, and nothing inside
it is looked at. Main statement: nodes that differ in private members only, at whatever depth, are
printed alike and with the same reports.
-/

set_option autoImplicit false

namespace Libdef

namespace Node

/-- A property or a method that is declared, not a signature of one, and private. -/
def isPrivateMember (n : Node) : Bool :=
  (n.head.kind == .propertyDeclaration || n.head.kind == .methodDeclaration) &&
    n.head.modifiers.contains .privateKeyword

/-- The node with all private members taken out of the lists of members, at every depth. -/
def publicPart (n : Node) : Node :=
  n.fold fun s => .mk { s with members := s.members.filter fun m => !m.isPrivateMember }

theorem head_publicPart (n : Node) : n.publicPart.head = n.head := by
  rw [publicPart, fold_eq]
  rfl

theorem publicPart_eq (n : Node) :
    n.publicPart = .mk { n.shape.map publicPart with
      members := (n.shape.members.filter fun m => !m.isPrivateMember).map publicPart } := by
  have htest :
      ((fun m : Node => !m.isPrivateMember) ∘ publicPart) = fun m => !m.isPrivateMember := by
    funext m
    simp only [Function.comp_apply, isPrivateMember, head_publicPart]
  rw [publicPart, fold_eq]
  show Node.mk { n.shape.map publicPart with
    members := (n.shape.members.map publicPart).filter fun m => !m.isPrivateMember } = _
  rw [List.filter_map, htest]

end Node

namespace Sheet

def shownMembers (members : List Printed) : Traced Diagnostic (List Layout) := do
  let layouts ← (members.map Printed.sheet).mapM id
  return layouts.filter fun l => !l.isEmpty

theorem shownMembers_cons (p : Printed) (members : List Printed) :
    shownMembers (p :: members) = (do
      let l ← p.sheet
      let shown ← shownMembers members
      return if l.isEmpty then shown else l :: shown) := by
  simp only [shownMembers, List.map_cons, List.mapM_cons, bind_assoc, pure_bind, id]
  congr 1
  funext l
  congr 1
  funext layouts
  cases hl : l.isEmpty <;> simp [hl]

theorem body_eq (s : Shape Printed) (withSemicolons : Bool) :
    body s withSemicolons = bodyLayout withSemicolons <$> shownMembers s.members := by
  simp [body, shownMembers, bodyLayout, List.filter_filter]

theorem print_of_shownMembers (vocabulary : Vocabulary) (s : Shape Printed) {members : List Printed}
    (h : shownMembers members = shownMembers s.members) :
    print vocabulary { s with members := members } = print vocabulary s := by
  have hbody (withSemicolons : Bool) :
      body { s with members := members } withSemicolons = body s withSemicolons := by
    rw [body_eq, body_eq, h]
  have hcontainer (word : Text) (withSemicolons : Bool) :
      container { s with members := members } word withSemicolons =
        container s word withSemicolons := by
    simp only [container, hbody]
    rfl
  have hsheet : ofShape vocabulary { s with members := members } = ofShape vocabulary s := by
    simp only [ofShape]
    cases s.kind with
    | interfaceDeclaration => simp only [interfaceDeclaration, hcontainer]; rfl
    | classDeclaration => simp only [classDeclaration, hcontainer]; rfl
    | typeLiteral => exact hbody false
    | _ => rfl
  simp only [print, hsheet]
  rfl

end Sheet

namespace Node

open Sheet

theorem sheet_of_isPrivateMember (vocabulary : Vocabulary) {n : Node}
    (h : n.isPrivateMember = true) : (n.printed vocabulary).sheet = ofText "" := by
  simp only [isPrivateMember, Bool.and_eq_true, Bool.or_eq_true, beq_iff_eq] at h
  obtain ⟨hkind, hprivate⟩ := h
  have hparts : isPrivate (n.parts vocabulary) = true := hprivate
  have hkind' : (n.parts vocabulary).kind = n.head.kind := rfl
  rw [printed_eq]
  show ofShape vocabulary (n.parts vocabulary) = _
  rcases hkind with hkind | hkind
  · simp only [ofShape, hkind', hkind, hparts, if_true]
  · simp only [ofShape, hkind', hkind, hparts, if_true]

theorem shownMembers_filter (vocabulary : Vocabulary) (members : List Node) :
    shownMembers ((members.filter fun m => !m.isPrivateMember).map (printed vocabulary)) =
      shownMembers (members.map (printed vocabulary)) := by
  induction members with
  | nil => rfl
  | cons m rest ih =>
    rw [List.map_cons, shownMembers_cons]
    cases hm : m.isPrivateMember with
    | true =>
      -- The member gives an empty layout without a report, which the body leaves out.
      rw [sheet_of_isPrivateMember vocabulary hm, ofText, pure_bind]
      simpa [hm, Layout.isEmpty] using ih
    | false => simp [hm, shownMembers_cons, ih]

theorem parts_publicPart (vocabulary : Vocabulary) {n : Node}
    (h : ∀ m ∈ n.shape.parts, m.publicPart.printed vocabulary = m.printed vocabulary) :
    n.publicPart.parts vocabulary = { n.parts vocabulary with
      members :=
        (n.shape.members.filter fun m => !m.isPrivateMember).map (printed vocabulary) } := by
  have hparts : (n.shape.map publicPart).map (printed vocabulary) = n.parts vocabulary := by
    rw [Shape.map_map, Shape.map_congr h, parts]
  have hmembers : ((n.shape.members.filter fun m => !m.isPrivateMember).map publicPart).map
      (printed vocabulary) =
        (n.shape.members.filter fun m => !m.isPrivateMember).map (printed vocabulary) := by
    rw [List.map_map]
    refine List.map_congr_left fun m hm => h m ?_
    simp [Shape.parts, (List.mem_filter.mp hm).1]
  rw [publicPart_eq, ← hparts, ← hmembers]
  rfl

theorem printed_publicPart (vocabulary : Vocabulary) (n : Node) :
    n.publicPart.printed vocabulary = n.printed vocabulary := by
  induction n using Node.induct with
  | h n ih =>
    rw [printed_eq, printed_eq, parts_publicPart vocabulary ih]
    exact print_of_shownMembers vocabulary _ (shownMembers_filter vocabulary _)

/-- Nodes that are the same but for private members in them, however many there are, wherever they
stand and whatever they hold, give the same text at every line width and make the same reports. -/
theorem printed_alike_of_publicPart_eq {n m : Node} (h : n.publicPart = m.publicPart)
    (vocabulary : Vocabulary) (width : Int) :
    let first := (n.printed vocabulary).sheet
    let second := (m.printed vocabulary).sheet
    first.log = second.log ∧
      first.result.map (Layout.render width) = second.result.map (Layout.render width) := by
  have hprinted : n.printed vocabulary = m.printed vocabulary := by
    rw [← printed_publicPart vocabulary n, h, printed_publicPart vocabulary m]
  intro first second
  have hsheet : first = second := by simp only [first, second, hprinted]
  rw [hsheet]
  exact ⟨rfl, rfl⟩

/-- A class with a private property of a type that has no printed form, and with a method whose
parameter is of a type with a private method, beside the class without these two members. -/
theorem printed_alike_of_publicPart_eq_nested :
    let secret := Node.mk { kind := .propertyDeclaration, name := some "secret",
                            modifiers := [.privateKeyword],
                            type := some (.mk { kind := .unsupported }) }
    let hidden := Node.mk { kind := .methodDeclaration, name := some "hidden",
                            modifiers := [.privateKeyword] }
    let parameter (members : List Node) :=
      Node.mk { kind := .parameter, name := some "x",
                type := some (.mk { kind := .typeLiteral, members := members }) }
    let method (members : List Node) :=
      Node.mk { kind := .methodDeclaration, name := some "accept",
                parameters := [parameter members] }
    let container (members : List Node) :=
      Node.mk { kind := .classDeclaration, name := some "C", members := members }
    let full := container [secret, method [hidden]]
    let cut := container [method []]
    full.publicPart = cut.publicPart ∧
      (full.printed .declarations).sheet.log = [] ∧
      (full.printed .declarations).sheet.result.map (Layout.render 20) =
        .ok "declare class C \x7b\n\t\taccept(x: \x7b\x7d): any\n\t\x7d" := by
  intro secret hidden parameter method container full cut
  have hpublic : full.publicPart = cut.publicPart := rfl
  obtain ⟨hlog, htext⟩ := printed_alike_of_publicPart_eq hpublic .declarations 20
  have hnone : (cut.printed .declarations).sheet.log = [] := by decide +kernel
  have hcut : (cut.printed .declarations).sheet.result.toOption.map (Layout.render 20) =
      some ("declare class C \x7b\n\t\taccept(x: \x7b\x7d): any\n\t\x7d" : Text) := by
    decide +kernel
  obtain ⟨layout, hlayout, hrender⟩ := exists_ok_of_map hcut
  refine ⟨hpublic, hlog.trans hnone, htext.trans ?_⟩
  rw [hlayout, ← hrender]
  rfl

end Node
end Libdef
