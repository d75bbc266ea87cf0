import Mathlib.Logic.Relation
import Libdef.Proofs.Degraded
import Libdef.Proofs.DottedName

/-!
The kinds of the nodes that are read. A table of visitors by raw kind says how a value is read, and
each visitor gives a kind of its own; another table has the kind of each raw kind. Main statement:
at every depth, a node has the kind that the second table gives for its raw kind, unless that kind
is foreign or it is a literal type without a text that can be recovered. Such a node is unsupported,
and every other literal has a text.
-/

set_option autoImplicit false

namespace Libdef

namespace Kind

def Names (kind : Kind) (raw : Json) : Prop :=
  ∃ s, raw = .str s ∧ (s = kind.name ∨ (s, kind) ∈ aliases)

/-- The value names none of the kinds that are told apart. -/
def Foreign (raw : Json) : Prop := ∀ kind : Kind, kind ≠ .unsupported → ¬kind.Names raw

theorem ofName?_of_mem_aliases {s : Text} {kind : Kind} (h : (s, kind) ∈ aliases) :
    ofName? s = some kind := by
  have hall : ∀ a ∈ aliases, ofName? a.1 = some a.2 := by decide
  exact hall (s, kind) h

theorem Names.ofJson?_eq {kind : Kind} {raw : Json} (h : kind.Names raw) :
    ofJson? raw = some kind := by
  obtain ⟨s, rfl, rfl | ha⟩ := h
  · simp [ofJson?, ofName?_name]
  · simp [ofJson?, ofName?_of_mem_aliases ha]

theorem names_of_ofJson? {kind : Kind} {raw : Json} (h : ofJson? raw = some kind)
    (hk : kind ≠ .unsupported) : kind.Names raw := by
  cases raw with
  | str s =>
    refine ⟨s, rfl, ?_⟩
    simp only [ofJson?, Option.some.injEq] at h
    cases hs : ofName? s with
    | none => exact absurd (by rw [← h, hs]; rfl) hk
    | some k =>
      obtain rfl : k = kind := by rwa [hs] at h
      rcases Option.or_eq_some_iff.mp hs with ha | ⟨-, hf⟩
      · obtain ⟨before, after, hl, -⟩ := List.lookup_eq_some_iff.mp ha
        exact .inr (by simp [hl])
      · have hname := List.find?_some hf
        exact .inl (beq_iff_eq.mp hname).symm
  | _ =>
    simp only [ofJson?] at h
    split at h
    · cases h
    · exact absurd (Option.some.inj h).symm hk

theorem foreign_of_ofJson? {raw : Json} (h : ofJson? raw = some .unsupported) : Foreign raw := by
  intro kind hk hnames
  exact hk (Option.some.inj (hnames.ofJson?_eq.symm.trans h))

theorem not_foreign_of_ofJson? {kind : Kind} {raw : Json} (h : ofJson? raw = some kind)
    (hk : kind ≠ .unsupported) : ¬Foreign raw :=
  fun hf => hf kind hk (names_of_ofJson? h hk)

end Kind

namespace Visitor

/-- The kind that a visitor gives to what it reads. -/
def kind : Visitor → Kind
  | .signature kind | .container kind | .property kind | .typeList kind | .word kind => kind
  | .typeAlias => .typeAliasDeclaration
  | .heritageClause => .heritageClause
  | .parameter => .parameter
  | .typeParameter => .typeParameter
  | .typeLiteral => .typeLiteral
  | .typeReference => .typeReference
  | .literal => .literalType
  | .tuple => .tupleType
  | .array => .arrayType
  | .parenthesized => .parenthesizedType
  | .typeQuery => .typeQuery
  | .typePredicate => .typePredicate
  | .qualifiedName => .qualifiedName
  | .expression => .expressionWithTypeArguments
  | .propertyAccess => .propertyAccessExpression
  | .bindingPattern => .objectBindingPattern
  | .bindingElement => .bindingElement

/-- The raw kind of a visitor that does not keep the one it finds. -/
def rawName? : Visitor → Option Text
  | .word kind => some kind.name
  | .qualifiedName => some "QualifiedName"
  | .bindingPattern => some "ObjectBindingPattern"
  | _ => none

/-- Each visitor is for names of its own kind, and for the one name that it writes, if any. Only
one visitor is for literal types. -/
theorem table_sound : ∀ entry ∈ table, Kind.ofName? entry.1 = some entry.2.kind ∧
    (∀ name ∈ entry.2.rawName?, name = entry.1) ∧
    (entry.2.kind = .literalType → entry.2 = .literal) := by
  decide +kernel

/-- Each kind but the keywords has a visitor, under all of its names. -/
theorem table_complete : (∀ kind ∈ Kind.all, kind.isKeyword = false → kind ≠ .unsupported →
      (table.lookup kind.name).isSome) ∧
    ∀ entry ∈ Kind.aliases, (table.lookup entry.1).isSome := by
  decide +kernel

theorem of_ofJson? {raw : Json} {v : Visitor} (h : ofJson? raw = some v) :
    Kind.ofJson? raw = some v.kind ∧ (∀ name ∈ v.rawName?, raw = .str name) ∧
      (v.kind = .literalType → v = .literal) := by
  cases raw with
  | str s =>
    obtain ⟨before, after, htable, -⟩ := List.lookup_eq_some_iff.mp h
    obtain ⟨hkind, hname, hliteral⟩ := table_sound (s, v) (by simp [htable])
    refine ⟨by simp [Kind.ofJson?, hkind], fun name hn => ?_, hliteral⟩
    rw [hname name hn]
  | _ => cases h

theorem isKeyword_of_ofJson? {raw : Json} {kind : Kind} (h : ofJson? raw = none)
    (hk : Kind.ofJson? raw = some kind) : kind.isKeyword = true ∨ kind = .unsupported := by
  by_contra hkind
  obtain ⟨hword, hknown⟩ := not_or.mp hkind
  rw [Bool.not_eq_true] at hword
  obtain ⟨s, rfl, rfl | ha⟩ := Kind.names_of_ofJson? hk hknown
  · have hsome := table_complete.1 kind kind.mem_all hword hknown
    rw [ofJson?] at h
    simp [h] at hsome
  · have hsome := table_complete.2 (s, kind) ha
    rw [ofJson?] at h
    simp [h] at hsome

end Visitor

def Reading.Give (part : Text → Reading) (m : Node) : Prop :=
  ∃ key, (part key).node = .ok (some m) ∨ ∃ nodes, (part key).nodes = .ok nodes ∧ m ∈ nodes

structure Head.Keeps (j : Json) (kind : Kind) (rawName : Option Text) (h : Head) : Prop where
  kind_eq : h.kind = kind
  rawKind : h.rawKind = (rawName.map Json.str).getD j.rawKind

/-- A text that can be recovered neither from the literal of a literal type nor without one. -/
def Json.LacksText (j : Json) : Prop :=
  let literal := j.get "literal"
  if literal.isObj then
    literal.literalText ((literal.field? "kind").getD (.str "StringLiteral")) = .ok none
  else (j.get "text").isNull = true

namespace Node

variable {j : Json} {part : Text → Reading}

theorem node_gives (part : Text → Reading) (key : Text) :
    Ends (fun o => ∀ m ∈ o, Reading.Give part m) (fun _ => True) (part key).node := by
  cases h : (part key).node with
  | error e => trivial
  | ok o =>
    intro m hm
    cases hm
    exact ⟨key, .inl h⟩

theorem nodes_give (part : Text → Reading) (key : Text) :
    Ends (fun l => ∀ m ∈ l, Reading.Give part m) (fun _ => True) (part key).nodes := by
  cases h : (part key).nodes with
  | error e => trivial
  | ok l => exact fun m hm => ⟨key, .inr ⟨l, h, hm⟩⟩

structure Read (j : Json) (part : Text → Reading) (kind : Kind) (rawName : Option Text)
    (s : Shape Node) : Prop where
  keeps : s.toHead.Keeps j kind rawName
  given : ∀ m ∈ s.parts, Reading.Give part m

theorem readHead_keeps (j : Json) (kind : Kind) :
    Ends (fun head => head.Keeps j kind none) (fun _ => True) (readHead j kind) := by
  refine (Ends.any j.ownName).bind fun name _ => ?_
  exact (Ends.any j.modifiers).bind fun modifiers _ => ⟨rfl, rfl⟩

theorem readBare_reads (kind : Kind) :
    Ends (Read j part kind none) (fun _ => True) (readBare j kind j.rawKind) :=
  (Ends.any j.ownName).bind fun name _ => ⟨⟨rfl, rfl⟩, by simp [Shape.parts]⟩

theorem readText_reads (kind : Kind) :
    Ends (Read j part kind (some kind.name)) (fun _ => True) (readText j kind) :=
  (Ends.any j.nameText).bind fun name _ => ⟨⟨rfl, rfl⟩, by simp [Shape.parts]⟩

theorem readSignature_reads (kind : Kind) :
    Ends (Read j part kind none) (fun _ => True) (readSignature j part kind) := by
  refine (readHead_keeps j kind).bind fun head hh => ?_
  refine (nodes_give part "parameters").bind fun parameters hps => ?_
  refine (nodes_give part "typeParameters").bind fun typeParameters hts => ?_
  refine (node_gives part "type").bind fun type ht => ⟨⟨hh.1, hh.2⟩, ?_⟩
  simp [Shape.parts]
  grind

theorem readContainer_reads (kind : Kind) :
    Ends (Read j part kind none) (fun _ => True) (readContainer j part kind) := by
  refine (readHead_keeps j kind).bind fun head hh => ?_
  refine (nodes_give part "typeParameters").bind fun typeParameters hts => ?_
  refine (nodes_give part "heritageClauses").bind fun heritageClauses hcs => ?_
  refine (nodes_give part "members").bind fun members hms => ⟨hh, ?_⟩
  simp [Shape.parts]
  grind

theorem readProperty_reads (kind : Kind) :
    Ends (Read j part kind none) (fun _ => True) (readProperty j part kind) := by
  refine (readHead_keeps j kind).bind fun head hh => ?_
  refine (node_gives part "type").bind fun type ht => ⟨⟨hh.1, hh.2⟩, ?_⟩
  simpa [Shape.parts] using ht

theorem Read.withBinding {kind : Kind} {rawName : Option Text} {s : Shape Node}
    {binding : Option Node} (h : Read j part kind rawName s)
    (hb : ∀ m ∈ binding, Reading.Give part m) (rest : Bool) :
    Read j part kind rawName { s with binding := binding, rest := rest } := by
  refine ⟨⟨h.keeps.1, h.keeps.2⟩, ?_⟩
  have hgiven := h.given
  simp only [Shape.parts, List.mem_append, Option.mem_toList] at hgiven ⊢
  grind

theorem visitor_reads {v : Visitor} (hv : v ≠ .literal) :
    Ends (Read j part v.kind v.rawName?) (fun _ => True) (v.read j part) := by
  cases v with
  | signature kind => exact readSignature_reads kind
  | container kind => exact readContainer_reads kind
  | property kind => exact readProperty_reads kind
  | typeAlias =>
    refine (readHead_keeps j _).bind fun head hh => ?_
    refine (nodes_give part "typeParameters").bind fun typeParameters hts => ?_
    refine (node_gives part "type").bind fun type ht => ⟨hh, ?_⟩
    simp [Shape.parts]
    grind
  | heritageClause | typeLiteral | typeList =>
    refine (readHead_keeps j _).bind fun head hh => ?_
    refine (nodes_give part _).bind fun list hl => ⟨⟨hh.1, hh.2⟩, ?_⟩
    simpa [Shape.parts] using hl
  | parameter =>
    refine (readProperty_reads _).bind fun shape hs => ?_
    dsimp only
    split
    · exact (node_gives part "name").bind fun binding hb => hs.withBinding hb _
    · exact hs.withBinding (by simp) _
  | typeParameter =>
    refine (readHead_keeps j _).bind fun head hh => ?_
    refine (node_gives part "constraint").bind fun constraint hc => ?_
    refine (node_gives part "default").bind fun fallback hf => ⟨hh, ?_⟩
    simp [Shape.parts]
    grind
  | typeReference =>
    refine (readHead_keeps j _).bind fun head hh => ?_
    refine (node_gives part "typeName").bind fun typeName hn => ?_
    refine (nodes_give part "typeArguments").bind fun typeArguments ha => ⟨hh, ?_⟩
    simp [Shape.parts]
    grind
  | literal => exact absurd rfl hv
  | tuple =>
    refine (readHead_keeps j _).bind fun head hh => ?_
    refine (nodes_give part _).bind fun elementTypes he => ⟨hh, ?_⟩
    simpa [Shape.parts] using he
  | array | parenthesized =>
    refine (readHead_keeps j _).bind fun head hh => ?_
    refine (node_gives part _).bind fun type ht => ⟨hh, ?_⟩
    simpa [Shape.parts] using ht
  | typeQuery =>
    refine (readHead_keeps j _).bind fun head hh => ?_
    refine (node_gives part "exprName").bind fun typeName hn => ?_
    refine (Ends.any _).bind fun name _ => ⟨⟨hh.1, hh.2⟩, ?_⟩
    simpa [Shape.parts] using hn
  | typePredicate =>
    refine (readHead_keeps j _).bind fun head hh => ?_
    refine (Ends.any _).bind fun subject _ => ?_
    refine (node_gives part "type").bind fun type ht => ⟨⟨hh.1, hh.2⟩, ?_⟩
    simpa [Shape.parts] using ht
  | word kind => exact readText_reads kind
  | qualifiedName =>
    refine (Ends.any _).bind fun name _ => ?_
    refine (node_gives part "left").bind fun left hl => ?_
    refine (node_gives part "right").bind fun right hr => ?_
    refine (nodes_give part "typeArguments").bind fun typeArguments ha => ?_
    refine ⟨⟨rfl, rfl⟩, ?_⟩
    simp [Shape.parts]
    grind
  | expression =>
    refine (readHead_keeps j _).bind fun head hh => ?_
    refine (node_gives part "expression").bind fun expression he => ?_
    refine (Ends.any _).bind fun name _ => ?_
    refine (nodes_give part "typeArguments").bind fun typeArguments ha => ⟨⟨hh.1, hh.2⟩, ?_⟩
    simp [Shape.parts]
    grind
  | propertyAccess =>
    refine (readHead_keeps j _).bind fun head hh => ?_
    refine (node_gives part "expression").bind fun expression he => ?_
    refine (Ends.any _).bind fun name _ => ⟨⟨hh.1, hh.2⟩, ?_⟩
    simpa [Shape.parts] using he
  | bindingPattern =>
    refine (nodes_give part "elements").bind fun elements he => ?_
    exact ⟨⟨rfl, rfl⟩, by simpa [Shape.parts] using he⟩
  | bindingElement =>
    exact (readHead_keeps j _).bind fun head hh => ⟨hh, by simp [Shape.parts]⟩

/-- What comes of a literal type: a literal with a text and a token, or an unsupported node. -/
structure ReadLiteral (j : Json) (s : Shape Node) : Prop where
  parts : s.parts = []
  cases : j.LacksText ∧ s.kind = .unsupported ∨
    ¬j.LacksText ∧ s.toHead.Keeps j .literalType none ∧ s.text.isSome ∧ s.token.isSome

theorem str_of_literalText {literal kind : Json} {text : Text}
    (h : literal.literalText kind = .ok (some text)) : ∃ s, kind = .str s := by
  cases kind with
  | str s => exact ⟨s, rfl⟩
  | _ => simp [Json.literalText, Json.isContainer] at h

theorem readLiteral_reads : Ends (ReadLiteral j) (fun _ => True) (readLiteral j) := by
  simp only [readLiteral]
  split
  · rename_i ho
    cases ht : (j.get "literal").literalText
        (((j.get "literal").field? "kind").getD (.str "StringLiteral")) with
    | error e => trivial
    | ok text =>
      cases text with
      | none =>
        refine (Ends.any j.ownName).bind fun name _ => ⟨by simp [Shape.parts], .inl ⟨?_, rfl⟩⟩
        simp [Json.LacksText, ho, ht]
      | some text =>
        obtain ⟨s, hs⟩ := str_of_literalText ht
        refine (readHead_keeps j _).bind fun head hh => ⟨by simp [Shape.parts], .inr ⟨?_, ?_⟩⟩
        · simp [Json.LacksText, ho, ht]
        · exact ⟨⟨hh.1, hh.2⟩, rfl, by simp [hs, Json.str?]⟩
  · rename_i ho
    split
    · rename_i hn
      refine (Ends.any j.ownName).bind fun name _ => ⟨by simp [Shape.parts], .inl ⟨?_, rfl⟩⟩
      simp [Json.LacksText, ho, hn]
    · rename_i hn
      refine (readHead_keeps j _).bind fun head hh => ⟨by simp [Shape.parts], .inr ⟨?_, ?_⟩⟩
      · simp [Json.LacksText, ho, hn]
      · exact ⟨⟨hh.1, hh.2⟩, rfl, rfl⟩

end Node

def Json.Within : Json → Json → Prop := Relation.ReflTransGen fun i j => i ∈ j.children

def Node.Within : Node → Node → Prop := Relation.ReflTransGen fun m n => m ∈ n.shape.parts

theorem Json.nodes_yield (j : Json) :
    Ends (fun l => ∀ m ∈ l, ∃ u ∈ j.items, Node.ofJson u = .ok (some m)) (fun _ => True)
      j.reading.nodes := by
  rw [reading_eq]
  cases j with
  | arr items =>
    refine (Ends.mapM (P := fun o => ∀ m ∈ o, ∃ u ∈ items, Node.ofJson u = .ok (some m))
      fun reading hr => ?_).map fun found hfound m hm => ?_
    · obtain ⟨u, hu, rfl⟩ := List.mem_map.mp hr
      cases ho : u.reading.node with
      | error e => trivial
      | ok o =>
        intro m hm
        cases hm
        exact ⟨u, hu, ho⟩
    · obtain ⟨o, ho, hm⟩ := List.mem_filterMap.mp hm
      exact hfound o ho m hm
  | null => exact nofun
  | _ =>
    simp only [Reading.step, Reading.nodesOf]
    split
    all_goals simp [Ends]

theorem Reading.Give.exists_within {j : Json} {m : Node}
    (h : Give (fun key => (j.get key).reading) m) :
    ∃ u : Json, u.Within j ∧ Node.ofJson u = .ok (some m) := by
  obtain ⟨key, hread⟩ := h
  have hget (hn : (j.get key).isNull = false) : j.get key ∈ j.children :=
    Json.mem_children_of_field? (Json.field?_of_get rfl hn)
  rcases hread with hnode | ⟨nodes, hnodes, hm⟩
  · refine ⟨j.get key, .single (hget ?_), hnode⟩
    cases hj : j.get key with
    | null => simp [hj, Json.reading_eq, step, nodeOf] at hnode
    | _ => rfl
  · obtain ⟨u, hu, hread⟩ := (j.get key).nodes_yield.of_ok hnodes m hm
    refine ⟨u, .head (Json.mem_children_of_mem_items hu) (.single (hget ?_)), hread⟩
    cases hj : j.get key with
    | null => simp [hj, Json.items] at hu
    | _ => rfl

namespace Node

variable {j : Json} {m n : Node}

theorem readShape_of_ofJson (h : ofJson j = .ok (some n)) :
    readShape j (fun key => (j.get key).reading) = .ok n.shape := by
  rw [ofJson, Json.reading_eq] at h
  simp only [Reading.step, Reading.part_eq] at h
  cases j with
  | obj fields =>
    simp only [Reading.nodeOf, readObject] at h
    obtain ⟨read, hread, hn⟩ := exists_of_map_eq_ok h
    cases hn
    obtain ⟨s, hs, rfl⟩ := exists_of_map_eq_ok hread
    exact hs
  | _ => cases h

/-- What is read has been read by a visitor, or is known by its kind only. Either way the kind is
that of the table. -/
theorem readShape_cases {part : Text → Reading} {s : Shape Node} (h : readShape j part = .ok s) :
    ∃ kind, Kind.ofJson? j.rawKind = some kind ∧
      ((kind = .literalType ∧ ReadLiteral j s) ∨
        kind ≠ .literalType ∧ ∃ rawName : Option Text, (∀ name ∈ rawName, j.rawKind = .str name) ∧
          Read j part kind rawName s) := by
  rw [readShape] at h
  split at h
  · rename_i v hv
    obtain ⟨hkind, hname, hliteral⟩ := Visitor.of_ofJson? hv
    refine ⟨v.kind, hkind, ?_⟩
    by_cases hl : v = .literal
    · subst hl
      exact .inl ⟨rfl, readLiteral_reads.of_ok h⟩
    · exact .inr ⟨mt hliteral hl, v.rawName?, hname, (visitor_reads hl).of_ok h⟩
  · rename_i hv
    rw [readGeneric] at h
    split at h
    · cases h
    · rename_i kind hk
      have hword := Visitor.isKeyword_of_ofJson? hv hk
      have hkind : (if kind.isKeyword then kind else .unsupported) = kind := by
        split
        · rfl
        · rename_i hno
          exact (hword.resolve_left hno).symm
      rw [hkind] at h
      refine ⟨kind, hk, .inr ⟨?_, none, by simp, (readBare_reads kind).of_ok h⟩⟩
      rintro rfl
      simp [Kind.isKeyword] at hword

/-- The parts of a node are read from values in the value that it is read from. -/
theorem exists_within_of_mem_parts (h : ofJson j = .ok (some n)) (hm : m ∈ n.shape.parts) :
    ∃ u : Json, u.Within j ∧ ofJson u = .ok (some m) := by
  obtain ⟨kind, -, ⟨-, hread⟩ | ⟨-, rawName, -, hread⟩⟩ := readShape_cases (readShape_of_ofJson h)
  · simp [hread.parts] at hm
  · exact (hread.given m hm).exists_within

theorem Within.exists_source (hm : m.Within n) (h : ofJson j = .ok (some n)) :
    ∃ u : Json, u.Within j ∧ ofJson u = .ok (some m) := by
  induction hm using Relation.ReflTransGen.head_induction_on with
  | refl => exact ⟨j, .refl, h⟩
  | head hpart _ ih =>
    obtain ⟨u, hu, hread⟩ := ih
    obtain ⟨v, hv, hread'⟩ := exists_within_of_mem_parts hread hpart
    exact ⟨v, hv.trans hu, hread'⟩

end Node

theorem Shape.snd_mem_parts_of_visited {α : Type} {vocabulary : Vocabulary} {s : Shape α}
    {role : Role} {v : Role × α} (hv : v ∈ s.visitedIn vocabulary role) : v.2 ∈ s.parts := by
  -- Visiting does not look at the parts, so it cannot tell this property from one that all have.
  have hmap : s.map (· ∈ s.parts) = s.map fun _ => True :=
    map_congr fun a ha => propext ⟨fun _ => trivial, fun _ => ha⟩
  have hvisited := congrArg (fun t => t.visitedIn vocabulary role) hmap
  simp only [visitedIn_map] at hvisited
  have hpart := congrArg Prod.snd (List.map_inj_left.mp hvisited v hv)
  exact of_eq_true hpart

theorem Head.of_mem_ownSpot {h spot : Head} (hs : spot ∈ h.ownSpot) :
    h = spot ∧ (h.kind = .unsupported ∨ h.kind = .literalType ∧ h.text = none) := by
  simp only [ownSpot] at hs
  split at hs
  · rename_i hk
    exact ⟨(List.mem_singleton.mp hs).symm, .inl hk⟩
  · rename_i hk
    split at hs
    · rename_i ht
      exact ⟨(List.mem_singleton.mp hs).symm, .inr ⟨hk, Option.isNone_iff_eq_none.mp ht⟩⟩
    · cases hs
  · cases hs

namespace Node

variable {m n : Node} {j : Json}

theorem exists_of_mem_degraded {role : Role} {spot : Head} (hs : spot ∈ n.degraded role) :
    ∃ m : Node, m.Within n ∧ m.head = spot ∧
      (m.head.kind = .unsupported ∨ m.head.kind = .literalType ∧ m.head.text = none) := by
  induction n using Node.induct generalizing role with
  | h n ih =>
    rw [degraded, borne_eq] at hs
    rcases List.mem_append.mp hs with hown | hpart
    · split at hown
      · exact ⟨n, .refl, Head.of_mem_ownSpot hown⟩
      · cases hown
    · obtain ⟨v, hv, hs⟩ := List.mem_flatMap.mp hpart
      have hmem := Shape.snd_mem_parts_of_visited hv
      obtain ⟨m, hm, hhead⟩ := ih v.2 hmem hs
      exact ⟨m, hm.tail hmem, hhead⟩

theorem log_eq_nil_of_literal (hk : m.head.kind = .literalType) (ht : m.head.text.isSome)
    (vocabulary : Vocabulary) : (m.printed vocabulary).sheet.log = [] := by
  obtain ⟨text, htext⟩ := Option.isSome_iff_exists.mp ht
  have hkind : (m.parts vocabulary).kind = .literalType := hk
  have htext' : (m.parts vocabulary).text = some text := htext
  rw [printed_eq]
  show (Sheet.ofShape vocabulary (m.parts vocabulary)).log = []
  simp only [Sheet.ofShape, hkind, Sheet.literal, htext']
  split
  · contradiction
  · split
    · rfl
    · split <;> rfl
  · rfl

end Node

theorem Head.Keeps.rawKind_eq {j : Json} {kind : Kind} {rawName : Option Text} {h : Head}
    (hkeeps : h.Keeps j kind rawName) (hname : ∀ name ∈ rawName, j.rawKind = .str name) :
    h.rawKind = j.rawKind := by
  rw [hkeeps.rawKind]
  cases rawName with
  | none => rfl
  | some name => exact (hname name rfl).symm

/-- A literal type by its raw kind that has no text to be recovered. -/
def Json.IsLostLiteral (j : Json) : Prop := Kind.literalType.Names j.rawKind ∧ j.LacksText

/-- A node agrees with the table on the value that it was read from. -/
structure Node.Agrees (m : Node) (u : Json) : Prop where
  table : Kind.ofJson? m.head.rawKind = some m.head.kind ∨ m.head.kind = .unsupported
  unsupported_iff : m.head.kind = .unsupported ↔ Kind.Foreign u.rawKind ∨ u.IsLostLiteral
  rawKind : ¬u.IsLostLiteral → m.head.rawKind = u.rawKind
  literal : m.head.kind = .literalType → m.head.text.isSome ∧ m.head.token.isSome ∧
    ∀ vocabulary, (m.printed vocabulary).sheet.log = []

namespace Node

variable {m n : Node} {u j : Json}

theorem Agrees.of_keeps {kind : Kind} {rawName : Option Text}
    (hk : Kind.ofJson? u.rawKind = some kind) (hkeeps : m.head.Keeps u kind rawName)
    (hname : ∀ name ∈ rawName, u.rawKind = .str name) (hlost : ¬u.IsLostLiteral)
    (hliteral : kind = .literalType → m.head.text.isSome ∧ m.head.token.isSome) : m.Agrees u where
  table := by
    rw [hkeeps.rawKind_eq hname, hkeeps.kind_eq]
    exact .inl hk
  unsupported_iff := by
    rw [hkeeps.kind_eq]
    refine ⟨fun he => .inl (Kind.foreign_of_ofJson? (he ▸ hk)), fun h => ?_⟩
    by_contra hne
    exact h.elim (Kind.not_foreign_of_ofJson? hk hne) hlost
  rawKind _ := hkeeps.rawKind_eq hname
  literal he := by
    obtain ⟨htext, htoken⟩ := hliteral (hkeeps.kind_eq.symm.trans he)
    exact ⟨htext, htoken, log_eq_nil_of_literal he htext⟩

theorem Agrees.of_lost (hlost : u.IsLostLiteral) (hkind : m.head.kind = .unsupported) :
    m.Agrees u where
  table := .inr hkind
  unsupported_iff := iff_of_true hkind (.inr hlost)
  rawKind h := absurd hlost h
  literal h := by
    rw [hkind] at h
    cases h

theorem agrees (h : ofJson u = .ok (some m)) : m.Agrees u := by
  obtain ⟨kind, hk, ⟨rfl, hread⟩ | ⟨hne, rawName, hname, hread⟩⟩ :=
    readShape_cases (readShape_of_ofJson h)
  · rcases hread.cases with ⟨hlacks, hkind⟩ | ⟨hlacks, hkeeps, hliteral⟩
    · exact .of_lost ⟨Kind.names_of_ofJson? hk (by decide), hlacks⟩ hkind
    · exact .of_keeps hk hkeeps (by simp) (fun hl => hlacks hl.2) fun _ => hliteral
  · refine .of_keeps hk hread.keeps hname (fun hl => hne ?_) fun hl => absurd hl hne
    exact Option.some.inj (hk.symm.trans hl.1.ofJson?_eq)

/-- Every node in a tree that is read comes from a value in it and agrees with the table there. In
particular every literal type has a text and a token. When the tree is printed, there is no report
but on unsupported nodes. -/
theorem kinds_agree (h : ofJson j = .ok (some n)) :
    (∀ m : Node, m.Within n → ∃ u : Json, u.Within j ∧ ofJson u = .ok (some m) ∧ m.Agrees u) ∧
      ∀ d ∈ (n.printed .declarations).sheet.log, ∃ m : Node, m.Within n ∧
        m.head.kind = .unsupported ∧ d = m.head.report := by
  have hagree (m : Node) (hm : m.Within n) :
      ∃ u : Json, u.Within j ∧ ofJson u = .ok (some m) ∧ m.Agrees u := by
    obtain ⟨u, hu, hread⟩ := hm.exists_source h
    exact ⟨u, hu, hread, agrees hread⟩
  refine ⟨hagree, fun d hd => ?_⟩
  have htold : Sheet.Marked False _ _ := n.told False.elim
  obtain ⟨spot, hs, rfl⟩ := List.mem_map.mp (htold.log.subset hd)
  obtain ⟨m, hm, rfl, hkind | ⟨hkind, htext⟩⟩ := exists_of_mem_degraded hs
  · exact ⟨m, hm, hkind, rfl⟩
  · obtain ⟨u, -, -, hagrees⟩ := hagree m hm
    have hsome := (hagrees.literal hkind).1
    simp [htext] at hsome

/-- A literal under an older name of its kind, one without a text, and a foreign kind. -/
theorem kinds_agree_union :
    let literal := Json.obj [("kind", .str "LastTypeNode"),
      ("literal", .obj [("kind", .str "NumericLiteral"), ("text", .str "1")])]
    let lost := Json.obj [("kind", .str "LiteralType"),
      ("literal", .obj [("kind", .str "TemplateExpression"), ("text", .str "a")])]
    let foreign := Json.obj [("kind", .str "MappedType")]
    let j := Json.obj [("kind", .str "UnionType"), ("types", .arr [literal, lost, foreign])]
    ∃ n, ofJson j = .ok (some n) ∧
      n.shape.types.map (fun m => (m.head.kind, m.head.token)) =
        ([(.literalType, some "NumericLiteral"), (.unsupported, none), (.unsupported, none)] :
          List (Kind × Option Text)) ∧
      ∀ m ∈ n.shape.types, ∃ u : Json, u.Within j ∧ ofJson u = .ok (some m) ∧ m.Agrees u := by
  intro literal lost foreign j
  have hkinds : (ofJson j).toOption.map (fun o => o.map fun n =>
      n.shape.types.map fun m => (m.head.kind, m.head.token)) = some (some
        ([(.literalType, some "NumericLiteral"), (.unsupported, none), (.unsupported, none)] :
          List (Kind × Option Text))) := by
    decide +kernel
  obtain ⟨o, hread, ho⟩ := exists_ok_of_map hkinds
  obtain ⟨n, rfl, hn⟩ := Option.map_eq_some_iff.mp ho
  refine ⟨n, hread, hn, fun m hm => (kinds_agree hread).1 m (.single ?_)⟩
  simp [Shape.parts, hm]

end Node
end Libdef
