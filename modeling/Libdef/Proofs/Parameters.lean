import Libdef.Proofs.DottedName
import Libdef.Proofs.OnePass

/-!
Parameters and the names they bind. A parameter is called by an identifier or by a pattern that may
hold further patterns. The printer opens an object pattern that stands for a whole parameter, and no
other one. Main statement: an identifier that is bound outside such closed patterns occurs in front
of the type, and nothing is reported of one that is bound inside.
-/

set_option autoImplicit false

namespace Libdef

namespace Json

/-- The identifier `x` is bound by this name of a parameter or of an element of a pattern. -/
inductive Binds : Json → Text → Prop where
  | identifier {j : Json} {x : Text} (h : j.IsIdentifier x) : Binds j x
  | element {j e : Json} {elements : List Json} {x : Text} (hj : j.isBindingPattern = true)
      (helements : j.get "elements" = .arr elements) (he : e ∈ elements)
      (hkind : e.get "kind" = .str "BindingElement") (h : Binds (e.get "name") x) : Binds j x

/-- The name of a parameter binds `x` in an array pattern, or in a pattern that stands for an
element of its object pattern. -/
inductive Hides (j : Json) (x : Text) : Prop where
  | array (hj : j.get "kind" = .str "ArrayBindingPattern") (h : j.Binds x)
  | nested {e : Json} {elements : List Json} (hj : j.get "kind" = .str "ObjectBindingPattern")
      (helements : j.get "elements" = .arr elements) (he : e ∈ elements)
      (hkind : e.get "kind" = .str "BindingElement")
      (hpattern : (e.get "name").isBindingPattern = true) (h : (e.get "name").Binds x)

theorem kind_of_isBindingPattern {j : Json} (h : j.isBindingPattern = true) :
    j.get "kind" = .str "ObjectBindingPattern" ∨ j.get "kind" = .str "ArrayBindingPattern" := by
  simp only [isBindingPattern, Bool.or_eq_true] at h
  cases hk : j.get "kind" <;> simp_all [isStr]

theorem Hides.binds {j : Json} {x : Text} (h : j.Hides x) : j.Binds x := by
  cases h with
  | array _ h => exact h
  | nested hj helements he hkind _ h =>
    exact .element (by simp [isBindingPattern, hj, isStr]) helements he hkind h

/-- What is not hidden is the identifier itself, or the one that an element is called by. -/
theorem Binds.cases {j : Json} {x : Text} (h : j.Binds x) :
    j.Hides x ∨ j.IsIdentifier x ∨ j.get "kind" = .str "ObjectBindingPattern" ∧
      ∃ elements e, j.get "elements" = .arr elements ∧ e ∈ elements ∧
        e.get "kind" = .str "BindingElement" ∧ (e.get "name").IsIdentifier x := by
  cases h with
  | identifier h => exact .inr (.inl h)
  | @element _ e elements _ hj helements he hkind h =>
    rcases kind_of_isBindingPattern hj with hobject | harray
    · cases h with
      | identifier h => exact .inr (.inr ⟨hobject, elements, e, helements, he, hkind, h⟩)
      | element hpattern helements' he' hkind' h =>
        exact .inl (.nested hobject helements he hkind hpattern
          (.element hpattern helements' he' hkind' h))
    · exact .inl (.array harray (.element hj helements he hkind h))

end Json

def Json.isObjectPattern (j : Json) : Bool := (j.get "kind").isStr "ObjectBindingPattern"

theorem Json.isObjectPattern_iff {j : Json} :
    j.isObjectPattern = true ↔ j.get "kind" = .str Kind.objectBindingPattern.name := by
  rw [isObjectPattern]
  cases j.get "kind" <;> simp [isStr, Kind.name]

namespace Node

variable {j : Json} {part : Text → Reading}

structure IsParameter (j : Json) (part : Text → Reading) (s : Shape Node) : Prop where
  kind : s.kind = .parameter
  name : j.ownName = .ok s.name
  type : (part "type").node = .ok s.type
  binding : if (j.get "name").isObjectPattern then (part "name").node = .ok s.binding
    else s.binding = none
  optional : s.optional = (j.get "questionToken").truthy
  rest : s.rest = (j.get "dotDotDotToken").truthy

theorem readParameter_ends :
    Ends (IsParameter j part) (fun _ => True) (Visitor.parameter.read j part) := by
  have hproperty : Ends (fun s : Shape Node => s.kind = .parameter ∧ j.ownName = .ok s.name ∧
      (part "type").node = .ok s.type ∧ s.optional = (j.get "questionToken").truthy ∧
        s.binding = none) (fun _ => True) (readProperty j part .parameter) := by
    refine (readHead_head _).bind fun head hh => ?_
    exact (Ends.self _).bind fun type ht => ⟨hh.1, hh.2, ht, rfl, rfl⟩
  refine hproperty.bind fun s ⟨hk, hn, ht, ho, hb⟩ => ?_
  dsimp only
  split
  · rename_i hpattern
    refine (Ends.self _).bind fun binding hb => ⟨hk, hn, ht, ?_, ho, rfl⟩
    rw [Json.isObjectPattern, if_pos hpattern]
    exact hb
  · rename_i hpattern
    exact ⟨hk, hn, ht, by rw [Json.isObjectPattern, if_neg hpattern], ho, rfl⟩

end Node

namespace Json

variable {j : Json}

def marked (j : Json) (left : Text) : Text :=
  (if (j.get "dotDotDotToken").truthy then ("..." : Text) else "") ++ left ++
    (if (j.get "questionToken").truthy then ("?" : Text) else "")

/-- The name of a parameter as it is printed: its own name, or its object pattern. -/
def printedName (j : Json) (own : Option Text) (vocabulary : Vocabulary) (width : Int) :
    Traced Diagnostic Text :=
  if (j.get "name").isObjectPattern then (j.get "name").printedType vocabulary width
  else pure (own.getD "")

theorem printedType_of_ofJson {o : Option Node} (h : Node.ofJson j = .ok o)
    (vocabulary : Vocabulary) (width : Int) : j.printedType vocabulary width =
      Writing.typeOrAny (o.map (Node.written vocabulary width)) := by
  have hwritten : (o.map (Node.printed vocabulary)).map (Printed.atWidth width) =
      o.map (Node.written vocabulary width) := by
    cases o with
    | none => rfl
    | some n => exact congrArg some (n.printed_atWidth vocabulary width)
  rw [printedType, h, Traced.bind_of_ok (Traced.result_lift _), ← hwritten,
    ← Sheet.render_typeOrAny]
  rfl

theorem exists_read_of_visitor {kind : Text} {v : Visitor} (hk : j.get "kind" = .str kind)
    (hv : Visitor.table.lookup kind = some v) {o : Option Node} (h : Node.ofJson j = .ok o) :
    ∃ s, o = some (.mk s) ∧ v.read j (fun key => (j.get key).reading) = .ok s := by
  rw [Node.ofJson, reading_of_visitor hk hv] at h
  obtain ⟨s, hs, rfl⟩ := exists_of_map_eq_ok h
  exact ⟨s, rfl, hs⟩

theorem printedType_mk {s : Shape Node} (h : Node.ofJson j = .ok (some (.mk s)))
    (vocabulary : Vocabulary) (width : Int) : j.printedType vocabulary width =
      Writing.ofShape vocabulary width (s.map (Node.written vocabulary width)) := by
  rw [printedType_of_ofJson h]
  show ((Node.mk s).written vocabulary width).text = _
  rw [Node.written_eq]
  rfl

theorem printedType_parameter (hk : j.get "kind" = .str "Parameter") {o : Option Node}
    (h : Node.ofJson j = .ok o) : ∃ own, j.ownName = .ok own ∧ ∀ vocabulary width,
      j.printedType vocabulary width = do
        let left ← j.printedName own vocabulary width
        let type ← (j.get "type").printedType vocabulary width
        return j.marked left ++ ": " ++ type := by
  obtain ⟨s, rfl, hread⟩ := exists_read_of_visitor hk (v := .parameter) (by decide) h
  have hs := Node.readParameter_ends.of_ok hread
  refine ⟨s.name, hs.name, fun vocabulary width => ?_⟩
  have hname : Writing.parameterName (s.map (Node.written vocabulary width)) =
      j.printedName s.name vocabulary width := by
    have hbinding := hs.binding
    simp only [Writing.parameterName, Shape.map, printedName]
    split at hbinding
    · rename_i hpattern
      obtain ⟨b, hb, -⟩ := exists_read_of_visitor (isObjectPattern_iff.mp hpattern)
        (v := .bindingPattern) (by decide) hbinding
      rw [if_pos hpattern, printedType_of_ofJson hbinding, hb]
      rfl
    · rename_i hpattern
      rw [if_neg hpattern, hbinding]
      rfl
  have htype := printedType_of_ofJson (j := j.get "type") hs.type vocabulary width
  rw [printedType_mk h, Writing.ofShape,
    show (s.map (Node.written vocabulary width)).kind = .parameter from hs.kind, htype, ← hname]
  simp only [Writing.parameter, marked, ← hs.optional, ← hs.rest]
  rfl

theorem printedType_element (hk : j.get "kind" = .str "BindingElement") {o : Option Node}
    (h : Node.ofJson j = .ok o) : ∃ own, j.ownName = .ok own ∧ ∀ vocabulary width,
      j.printedType vocabulary width = pure (own.getD "") := by
  obtain ⟨s, rfl, hread⟩ := exists_read_of_visitor hk (v := .bindingElement) (by decide) h
  have helement : Ends (fun s : Shape Node => s.kind = .bindingElement ∧ j.ownName = .ok s.name)
      (fun _ => True) (Visitor.bindingElement.read j fun key => (j.get key).reading) :=
    (Node.readHead_head _).bind fun head hh => hh
  obtain ⟨hs, hname⟩ := helement.of_ok hread
  refine ⟨s.name, hname, fun vocabulary width => ?_⟩
  rw [printedType_mk h, Writing.ofShape,
    show (s.map (Node.written vocabulary width)).kind = .bindingElement from hs]
  rfl

theorem printedType_pattern (hk : j.isObjectPattern = true) {o : Option Node}
    (h : Node.ofJson j = .ok o) : ∃ nodes, (j.get "elements").reading.nodes = .ok nodes ∧
      ∀ vocabulary width, j.printedType vocabulary width =
        (fun pieces => "\x7b" ++ Text.join ", " pieces ++ "\x7d") <$>
          nodes.mapM fun m => (m.written vocabulary width).text := by
  obtain ⟨s, rfl, hread⟩ := exists_read_of_visitor (isObjectPattern_iff.mp hk)
    (v := .bindingPattern) (by decide) h
  have hpattern : Ends (fun s : Shape Node => s.kind = .objectBindingPattern ∧
        (j.get "elements").reading.nodes = .ok s.elements) (fun _ => True)
      (Visitor.bindingPattern.read j fun key => (j.get key).reading) :=
    (Ends.self _).bind fun elements he => ⟨rfl, he⟩
  obtain ⟨hs, helements⟩ := hpattern.of_ok hread
  refine ⟨s.elements, helements, fun vocabulary width => ?_⟩
  rw [printedType_mk h, Writing.ofShape,
    show (s.map (Node.written vocabulary width)).kind = .objectBindingPattern from hs]
  simp only [Writing.enclosed, Writing.joined, Shape.map, List.map_map, List.mapM_map,
    bind_pure_comp, Functor.map_map]
  rfl

theorem exists_of_mem_elements {elements : List Json} {nodes : List Node}
    (h : (Json.arr elements).reading.nodes = .ok nodes) {e : Json} (he : e ∈ elements) :
    ∃ o, Node.ofJson e = .ok o ∧ ∀ m ∈ o, m ∈ nodes := by
  rw [reading_eq] at h
  obtain ⟨found, hfound, rfl⟩ := exists_of_map_eq_ok h
  obtain ⟨o, ho, hnode⟩ := exists_mem_of_mapM hfound (List.mem_map_of_mem he)
  exact ⟨o, hnode, fun m hm => List.mem_filterMap.mpr ⟨o, ho, hm⟩⟩

variable {vocabulary : Vocabulary} {width : Int} {left text : Text}

theorem exists_ofJson_of_printedType (h : (j.printedType vocabulary width).result = .ok text) :
    ∃ o, Node.ofJson j = .ok o := by
  obtain ⟨o, ho, -⟩ := Traced.exists_of_bind_eq_ok h
  exact ⟨o, ho⟩

theorem exists_ownName_of_element (hk : j.isObjectPattern = true)
    (h : (j.printedType vocabulary width).result = .ok left) {elements : List Json} {e : Json}
    (helements : j.get "elements" = .arr elements) (he : e ∈ elements)
    (hkind : e.get "kind" = .str "BindingElement") :
    ∃ own, e.ownName = .ok own ∧ e.printedType vocabulary width = pure (own.getD "") ∧
      Text.Occurs (own.getD "") left := by
  obtain ⟨o, hread⟩ := exists_ofJson_of_printedType h
  obtain ⟨nodes, hnodes, hprinted⟩ := printedType_pattern hk hread
  rw [helements] at hnodes
  obtain ⟨o, ho, hmem⟩ := exists_of_mem_elements hnodes he
  obtain ⟨own, hown, hprint⟩ := printedType_element hkind ho
  obtain ⟨s, rfl, -⟩ := exists_read_of_visitor hkind (v := .bindingElement) (by decide) ho
  refine ⟨own, hown, hprint vocabulary width, ?_⟩
  rw [hprinted, Traced.result_map] at h
  obtain ⟨pieces, hpieces, rfl⟩ := exists_of_map_eq_ok h
  rw [Traced.result_mapM] at hpieces
  obtain ⟨piece, hp, hpiece⟩ := exists_mem_of_mapM hpieces (hmem (.mk s) rfl)
  have hname : (e.printedType vocabulary width).result = .ok piece := by
    rw [printedType_of_ofJson ho]
    exact hpiece
  rw [hprint] at hname
  cases hname
  exact ((Text.occurs_join hp).append_left _).append_right _

def Reported (log : List Diagnostic) : Prop := ∃ d ∈ log, d.kind = .unsupportedKind

theorem not_reported_of_eq_nil {log : List Diagnostic} (h : log = []) : ¬Reported log := by
  subst h
  exact nofun

theorem exists_left_of_parameter (hk : j.get "kind" = .str "Parameter")
    (h : (j.printedType vocabulary width).result = .ok text) :
    ∃ own left type, j.ownName = .ok own ∧
      (j.printedName own vocabulary width).result = .ok left ∧
      ((j.get "type").printedType vocabulary width).result = .ok type ∧
      text = j.marked left ++ ": " ++ type ∧
      (j.printedType vocabulary width).log = (j.printedName own vocabulary width).log ++
        ((j.get "type").printedType vocabulary width).log := by
  obtain ⟨o, hread⟩ := exists_ofJson_of_printedType h
  obtain ⟨own, hown, hprinted⟩ := printedType_parameter hk hread
  rw [hprinted] at h ⊢
  obtain ⟨left, hleft, hrest, hlog⟩ := Traced.exists_of_bind_eq_ok h
  obtain ⟨type, htype, htext, hlog'⟩ := Traced.exists_of_bind_eq_ok hrest
  refine ⟨own, left, type, hown, hleft, htype, (Except.ok.inj htext).symm, ?_⟩
  rw [hlog, hlog', Traced.log_pure, List.append_nil]

theorem exists_printedType (h : j.wellTyped = true) (vocabulary : Vocabulary) (width : Int) :
    ∃ text, (j.printedType vocabulary width).result = .ok text := by
  have hpart : Allows (fun _ => False) j.form.part := .of_eq_true (by simp [form_part, h])
  obtain ⟨o, ho, hprintable⟩ := (Node.ofJson_ends hpart).exists_ok
  have hsheet : (Sheet.typeOrAny (o.map (Node.printed vocabulary))).EndsIn fun _ => False := by
    refine Survey.faults_lawful.typeOrAny_sheet fun n hn => ?_
    exact Survey.faults_lawful.surveyed n (Node.fine_of_printable vocabulary (hprintable n hn))
  obtain ⟨layout, hlayout, -⟩ := hsheet.exists_ok
  refine ⟨layout.render width, ?_⟩
  rw [printedType, ho, Traced.bind_of_ok (Traced.result_lift _), Traced.result_map, hlayout]
  rfl

/-- What the name of a parameter binds occurs in the name as it is printed, unless it is hidden. -/
theorem Binds.occurs {own : Option Text} {x : Text} (hown : j.ownName = .ok own)
    (hleft : (j.printedName own vocabulary width).result = .ok left)
    (h : (j.get "name").Binds x) : (j.get "name").Hides x ∨ Text.Occurs x left := by
  rcases h.cases with hhidden | hidentifier | ⟨hobject, elements, e, helements, he, hkind, hname⟩
  · exact .inl hhidden
  · have hplain : (j.get "name").isObjectPattern = false := by
      simp [isObjectPattern, hidentifier.kind, isStr]
    rw [hidentifier.ownName_eq] at hown
    cases hown
    rw [printedName, hplain] at hleft
    cases hleft
    exact .inr (Text.occurs_refl x)
  · have hpattern : (j.get "name").isObjectPattern = true := isObjectPattern_iff.mpr hobject
    rw [printedName, if_pos hpattern] at hleft
    obtain ⟨own, hown, -, hoccurs⟩ := exists_ownName_of_element hpattern hleft helements he hkind
    rw [hname.ownName_eq] at hown
    cases hown
    exact .inr hoccurs

/-- A parameter of the right sort is printed. What stands in front of its type is its own name or
its object pattern with the own names of the elements, and only the pattern and the type make
reports. All that is bound outside hidden patterns occurs there. So either each bound identifier
occurs or there is a report of something without a printed form, exactly if that is so for the
hidden identifiers. -/
theorem parameter_names (hk : j.get "kind" = .str "Parameter") (vocabulary : Vocabulary)
    (width : Int) :
    (j.wellTyped = true → ∃ text, (j.printedType vocabulary width).result = .ok text) ∧
      ∀ text, (j.printedType vocabulary width).result = .ok text → ∃ own left type,
        text = j.marked left ++ ": " ++ type ∧
        ((j.get "type").printedType vocabulary width).result = .ok type ∧
        j.ownName = .ok own ∧ (j.printedName own vocabulary width).result = .ok left ∧
        (j.printedType vocabulary width).log = (j.printedName own vocabulary width).log ++
          ((j.get "type").printedType vocabulary width).log ∧
        ((j.get "name").isObjectPattern = true → ∀ elements e,
          (j.get "name").get "elements" = .arr elements → e ∈ elements →
            e.get "kind" = .str "BindingElement" → ∃ own, e.ownName = .ok own ∧
              e.printedType vocabulary width = pure (own.getD "")) ∧
        (∀ x, (j.get "name").Binds x → (j.get "name").Hides x ∨ Text.Occurs x left) ∧
        ((∀ x, (j.get "name").Binds x → Text.Occurs x (j.marked left)) ∨
            Reported (j.printedType vocabulary width).log ↔
          (∀ x, (j.get "name").Hides x → Text.Occurs x (j.marked left)) ∨
            Reported (j.printedType vocabulary width).log) := by
  refine ⟨fun h => exists_printedType h vocabulary width, fun text h => ?_⟩
  obtain ⟨own, left, type, hown, hleft, htype, htext, hlog⟩ := exists_left_of_parameter hk h
  have hoccurs {x : Text} (hx : (j.get "name").Binds x) := hx.occurs hown hleft
  refine ⟨own, left, type, htext, htype, hown, hleft, hlog,
    fun hpattern elements e hes he hkind => ?_, fun x => hoccurs,
    or_congr_left ⟨fun hall x hx => hall x hx.binds, fun hall x hx => ?_⟩⟩
  · rw [printedName, if_pos hpattern] at hleft
    obtain ⟨own, hown, hprint, -⟩ := exists_ownName_of_element hpattern hleft hes he hkind
    exact ⟨own, hown, hprint⟩
  · rcases hoccurs hx with hhidden | hx
    · exact hall x hhidden
    · exact (hx.append_left _).append_right _

/-- An optional parameter with an object pattern of two identifiers. -/
theorem parameter_names_pattern :
    let element (x : Text) := Json.obj [("kind", .str "BindingElement"), ("name", .identifier x)]
    let pattern := Json.obj [("kind", .str "ObjectBindingPattern"),
      ("elements", .arr [element "a", element "b"])]
    let j := Json.obj [("kind", .str "Parameter"), ("name", pattern),
      ("questionToken", .obj [("kind", .str "QuestionToken")])]
    j.get "kind" = .str "Parameter" ∧ pattern.Binds "a" ∧ pattern.Binds "b" ∧
      (j.printedType .types 80).result = .ok "\x7ba, b\x7d?: any" ∧
      ∀ x, pattern.Binds x → Text.Occurs x "\x7ba, b\x7d?" := by
  intro element pattern j
  have hkind : j.get "kind" = .str "Parameter" := rfl
  have hresult : (j.printedType .types 80).result = .ok "\x7ba, b\x7d?: any" := by rfl
  have hbinds {x : Text} (he : element x ∈ [element "a", element "b"]) : pattern.Binds x :=
    .element rfl rfl he rfl (.identifier ⟨rfl, rfl⟩)
  have hshown : ∀ x, ¬pattern.Hides x := by
    intro x hx
    cases hx with
    | array hj _ => exact absurd (Json.str.inj hj) (by decide)
    | @nested e elements _ helements he _ hpattern _ =>
      obtain rfl : [element "a", element "b"] = elements := Json.arr.inj helements
      simp only [List.mem_cons, List.not_mem_nil, or_false] at he
      rcases he with rfl | rfl <;> exact absurd hpattern (by decide)
  obtain ⟨own, left, type, -, -, hown, hleft, -, -, -, hiff⟩ :=
    (parameter_names hkind .types 80).2 _ hresult
  obtain rfl : "\x7ba, b\x7d" = left := Except.ok.inj hleft
  have hlog : ¬Reported (j.printedType .types 80).log :=
    not_reported_of_eq_nil (by decide +kernel)
  refine ⟨hkind, hbinds (by simp), hbinds (by simp), hresult, fun x hx => ?_⟩
  exact (hiff.mpr (.inl fun x hx => absurd hx (hshown x))).resolve_right hlog x hx

/-- Neither an array pattern nor a pattern in an object pattern is printed or reported. -/
theorem parameter_nameless :
    let element (name : Json) := Json.obj [("kind", .str "BindingElement"), ("name", name)]
    let pattern (kind : Text) (name : Json) :=
      Json.obj [("kind", .str kind), ("elements", .arr [element name])]
    let parameter (name : Json) := Json.obj [("kind", .str "Parameter"), ("name", name)]
    let array := pattern "ArrayBindingPattern" (.identifier "a")
    let nested := pattern "ObjectBindingPattern" (pattern "ObjectBindingPattern" (.identifier "a"))
    array.Binds "a" ∧ (parameter array).wellTyped = true ∧
      ((parameter array).printedType .types 80).result = .ok ": any" ∧
      ¬Reported ((parameter array).printedType .types 80).log ∧ ¬Text.Occurs "a" "" ∧
      nested.Binds "a" ∧ (parameter nested).wellTyped = true ∧
      ((parameter nested).printedType .types 80).result = .ok "\x7b\x7d: any" ∧
      ¬Reported ((parameter nested).printedType .types 80).log ∧
      ¬Text.Occurs "a" "\x7b\x7d" := by
  intro element pattern parameter array nested
  have hbinds (kind : Text) (hkind : kind = "ArrayBindingPattern" ∨ kind = "ObjectBindingPattern")
      (name : Json) (h : name.Binds "a") : (pattern kind name).Binds "a" := by
    refine .element ?_ rfl (List.mem_singleton_self (element name)) rfl h
    rcases hkind with rfl | rfl <;> rfl
  have ha : (identifier "a").Binds "a" := .identifier ⟨rfl, rfl⟩
  exact ⟨hbinds _ (.inl rfl) _ ha, by decide +kernel, by rfl,
    not_reported_of_eq_nil (by decide +kernel), by decide,
    hbinds _ (.inr rfl) _ (hbinds _ (.inr rfl) _ ha), by decide +kernel, by rfl,
    not_reported_of_eq_nil (by decide +kernel), by decide⟩

end Json
end Libdef
