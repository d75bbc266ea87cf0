import Libdef.Proofs.Brackets
import Libdef.Proofs.Printing

set_option autoImplicit false

namespace Libdef

namespace Layout

def Balanced (l : Layout) : Prop := ∀ width, Text.Balanced (l.render width)

variable {a b l : Layout}

@[simp] theorem balanced_text_iff {s : Text} : (text s).Balanced ↔ Text.Balanced s :=
  ⟨fun h => h 0, fun h _ => h⟩

theorem Balanced.append (ha : a.Balanced) (hb : b.Balanced) : (a.append b).Balanced :=
  fun width => (ha width).append (hb width)

theorem balanced_joined {sep : Text} {ls : List Layout} (hsep : Text.Balanced sep)
    (h : ∀ l ∈ ls, l.Balanced) : (joined sep ls).Balanced := by
  intro width
  rw [render_joined]
  refine Text.balanced_join hsep fun s hs => ?_
  obtain ⟨l, hl, rfl⟩ := List.mem_map.mp hs
  exact h l hl width

theorem balanced_literal {cs : List CodePoint} (h : Text.close [] cs = some []) :
    (text (Text.ofList cs)).Balanced := balanced_text_iff.mpr (Text.balanced_ofList h)

theorem render_row_cons (width : Int) (l : Layout) (ls : List Layout) :
    (row (l :: ls)).render width = l.render width ++ (row ls).render width := by
  cases ls with
  | nil => exact (Text.append_empty _).symm
  | cons b more => rfl

theorem Balanced.row_cons {ls : List Layout} (hl : l.Balanced) (h : (row ls).Balanced) :
    (row (l :: ls)).Balanced := by
  intro width
  rw [render_row_cons]
  exact (hl width).append (h width)

theorem Balanced.row_enclosed {before after : Text} {ls : List Layout} (hl : l.Balanced)
    (h : Text.Balanced (before ++ after)) (hr : (row ls).Balanced) :
    (row (before :: l :: after :: ls)).Balanced := by
  intro width
  have hends := ((hl width).enclosed h).append (hr width)
  simpa only [render_row_cons, render, Text.append_assoc] using hends

theorem Balanced.enclosed {before after : Text} (hl : l.Balanced)
    (h : Text.Balanced (before ++ after)) : (row [before, l, after]).Balanced :=
  hl.row_enclosed h (balanced_literal rfl)

theorem balanced_signatureLine {generics parameters arrow returns : Text}
    (hg : Text.Balanced generics) (hp : Text.Balanced parameters) (ha : Text.Balanced arrow)
    (hr : Text.Balanced returns) :
    Text.Balanced (signatureLine generics parameters arrow returns) := by
  have hround : Text.Balanced ("(" ++ parameters ++ ")") := hp.enclosed (Text.balanced_ends rfl)
  have hspaced := ((hg.append hround).append ha).append (t := " ") (Text.balanced_ofList rfl)
  simpa only [signatureLine, Text.append_assoc] using hspaced.append hr

/-- A signature is balanced whether or not it is wrapped. -/
theorem balanced_signature {generics parameters returns : Layout} {arrow : Text}
    (hg : generics.Balanced) (hp : parameters.Balanced) (ha : Text.Balanced arrow)
    (hr : returns.Balanced) : (signature generics parameters arrow returns).Balanced := by
  intro width
  simp only [render, signatureText]
  split
  · have hwrapped : Text.Balanced ("\n\t\t" ++ parameters.render width ++ "\n\t") :=
      (hp width).enclosed (Text.balanced_ends rfl)
    exact balanced_signatureLine (hg width) hwrapped ha (hr width)
  · exact balanced_signatureLine (hg width) (hp width) ha (hr width)

end Layout

/-! The texts that printing takes over. -/

def Head.texts (h : Head) : List Text :=
  h.name.toList ++ h.rawKind.texts ++ h.text.toList.flatMap Json.texts

/-- The names, raw kinds and texts in a node, at every depth. -/
def Node.texts (n : Node) : List Text :=
  n.fold fun s => s.toHead.texts ++ s.parts.flatten

theorem Node.texts_eq (n : Node) :
    n.texts = n.head.texts ++ n.shape.parts.flatMap Node.texts := by
  rw [texts, fold_eq, Shape.parts_map, List.flatten_eq_flatMap, List.flatMap_map]
  rfl

theorem Node.texts_eq_flatMap (n : Node) : n.texts = n.heads.flatMap Head.texts := by
  induction n using Node.induct with
  | h n ih =>
    rw [texts_eq, heads_eq, List.flatMap_cons, List.flatMap_assoc, List.flatMap_def,
      List.map_congr_left ih, ← List.flatMap_def]

def Survey.balance (vocabulary : Vocabulary) : Survey vocabulary Empty where
  runs t _ P := t.Yields P
  holds l _ := l.Balanced
  opens l _ := l.Balanced
  own _ := []
  fine h := ∀ t ∈ h.texts, Text.Balanced t

theorem Survey.All.balanced {vocabulary : Vocabulary} {ls : List Layout} {g : List Empty}
    (h : (Survey.balance vocabulary).All ls g) : ∀ l ∈ ls, l.Balanced := by
  induction h with
  | nil => simp
  | cons head _ ih => exact List.forall_mem_cons.mpr ⟨head, ih⟩

namespace Layout

theorem balanced_bodyLayout {ls : List Layout} (withSemicolons : Bool)
    (h : ∀ l ∈ ls, l.Balanced) : (Sheet.bodyLayout withSemicolons ls).Balanced := by
  simp only [Sheet.bodyLayout]
  split
  · exact balanced_literal rfl
  · refine (balanced_joined ?_ fun l hl => h l (List.mem_filter.mp hl).1).enclosed
      (Text.balanced_ends rfl)
    split <;> decide

theorem balanced_heritageLayout {types : List (Bool × Layout)}
    (h : ∀ l ∈ types.map Prod.snd, l.Balanced) : (Sheet.heritageLayout types).Balanced := by
  have hpart {word : Text} (hword : Text.Balanced word) (p : Bool × Layout → Bool) :
      (Sheet.heritagePart word ((types.filter p).map Prod.snd)).Balanced := by
    simp only [Sheet.heritagePart]
    split
    · exact balanced_literal rfl
    · refine .append (balanced_text_iff.mpr hword) (balanced_joined (by decide) fun l hl => ?_)
      obtain ⟨t, ht, rfl⟩ := List.mem_map.mp hl
      exact h t.2 (List.mem_map_of_mem (List.mem_filter.mp ht).1)
  exact (hpart (by decide) _).append (hpart (by decide) _)

end Layout

namespace Sheet

open Traced Layout

variable {s : Shape Printed}

theorem ofText_balanced {t : Text} (h : Text.Balanced t) :
    (ofText t).Yields Layout.Balanced := yields_pure (balanced_text_iff.mpr h)

theorem getD_balanced {name : Option Text} (h : ∀ t ∈ name, Text.Balanced t)
    {fallback : Text} (hf : Text.Balanced fallback) : Text.Balanced (name.getD fallback) := by
  cases name with
  | none => exact hf
  | some t => exact h t rfl

theorem name_balanced {name : Option Text} (h : ∀ t ∈ name, Text.Balanced t) :
    Text.Balanced (name.getD "") := getD_balanced h (Text.balanced_ofList rfl)

theorem nameText_balanced {name : Option Text} (h : ∀ t ∈ name, Text.Balanced t) :
    Text.Balanced (nameText name) := getD_balanced h (Text.balanced_ofList rfl)

theorem arrow_balanced (asDeclaration : Bool) : Text.Balanced (arrow asDeclaration) := by
  cases asDeclaration <;> decide

theorem kindName_balanced (kind : Kind) : Text.Balanced kind.name := by
  cases kind <;> exact Text.balanced_ofList rfl

theorem unsupported_balanced (hraw : ∀ t ∈ s.rawKind.texts, Text.Balanced t) :
    (unsupported s).Yields Layout.Balanced := by
  refine Yields.bind (P := fun _ => True) trivial fun _ _ => ofText_balanced ?_
  refine .append (by decide) ?_
  split
  · exact Json.balanced_label hraw
  · exact kindName_balanced s.kind

theorem ownText_balanced (hname : ∀ t ∈ s.name, Text.Balanced t)
    (htext : ∀ t, s.text = some (.str t) → Text.Balanced t) :
    (ownText s).Yields Layout.Balanced := by
  have hn := ofText_balanced (name_balanced hname)
  rcases ownText_cases s with ⟨-, hs⟩ | ⟨t, ht, -, hs⟩ | ⟨_, -, -, hs⟩ <;> rw [hs]
  · exact hn
  · exact ofText_balanced (htext t ht)
  · exact yields_fail _

theorem literal_balanced (hraw : ∀ t ∈ s.rawKind.texts, Text.Balanced t)
    (htext : ∀ t, s.text = some (.str t) → Text.Balanced t) :
    (literal s).Yields Layout.Balanced := by
  rcases literal_cases s with ⟨-, hs⟩ | ⟨t, ht, ⟨-, hs⟩ | ⟨-, hs⟩⟩ | ⟨_, -, -, hs⟩ <;> rw [hs]
  · exact unsupported_balanced hraw
  · exact ofText_balanced (Text.balanced_literal (htext t ht))
  · exact ofText_balanced (htext t ht)
  · exact yields_fail _

end Sheet

theorem Survey.balance_lawful {vocabulary : Vocabulary} : (balance vocabulary).Lawful where
  pure h := h
  bind := Traced.Yields.bind
  holds_of_opens h := h
  append := Layout.Balanced.append
  opens_append := Layout.Balanced.append
  keyword t ht := Layout.balanced_text_iff.mpr
    ((by decide : ∀ t ∈ Sheet.keywords, Text.Balanced t) t ht)
  lead t ht h := .append (Layout.balanced_text_iff.mpr
    ((by decide : ∀ t ∈ Sheet.leads, Text.Balanced t) t ht)) h
  seam t ht h := .append (Layout.balanced_text_iff.mpr
    ((by decide : ∀ t ∈ Sheet.seams, Text.Balanced t) t ht)) h
  tail t ht := Layout.balanced_text_iff.mpr
    ((by decide : ∀ t ∈ Sheet.tails, Text.Balanced t) t ht)
  enclosed e he h := h.enclosed
    ((by decide : ∀ e ∈ Sheet.ends, Text.Balanced (e.1 ++ e.2)) e he)
  indexed {p t _ _} hp ht := by
    have hrow : (Layout.row ["[", p, "]: ", t]).Balanced :=
      hp.row_enclosed (Text.balanced_ends rfl) ht
    exact hrow
  signature asDeclaration hp hq hr :=
    Layout.balanced_signature hq hp (Sheet.arrow_balanced asDeclaration) hr
  body withSemicolons h := Layout.balanced_bodyLayout withSemicolons h.balanced
  heritage h := Layout.balanced_heritageLayout h.balanced
  name h := Layout.balanced_text_iff.mpr
    (Sheet.name_balanced fun t ht => h t (by simp_all [Head.texts]))
  nameText h := Layout.balanced_text_iff.mpr
    (Sheet.nameText_balanced fun t ht => h t (by simp_all [Head.texts]))
  unsupported h _ := Sheet.unsupported_balanced fun t ht => h t (by simp_all [Head.texts])
  literal h _ := Sheet.literal_balanced (fun t ht => h t (by simp_all [Head.texts]))
    fun t ht => h t (by simp [Head.texts, ht, Json.texts])
  ownText h _ := Sheet.ownText_balanced (fun t ht => h t (by simp_all [Head.texts]))
    fun t ht => h t (by simp [Head.texts, ht, Json.texts])
  own_eq_nil _ := rfl

namespace Node

variable {n : Node} (h : ∀ t ∈ n.texts, Text.Balanced t)
include h

theorem fine_of_texts (vocabulary : Vocabulary) :
    ∀ h ∈ n.heads, (Survey.balance vocabulary).fine h := by
  rwa [texts_eq_flatMap, List.forall_mem_flatMap] at h

theorem printed_balanced (vocabulary : Vocabulary) :
    (n.printed vocabulary).sheet.Yields Layout.Balanced :=
  (Survey.balance_lawful.surveyed n (fine_of_texts h vocabulary)).sheet

theorem name_balanced : ∀ t ∈ n.name, Text.Balanced t := by
  intro t ht
  apply h
  rw [texts_eq]
  simp_all [Head.texts, head, name]

end Node

/-- The texts in an item that is printed; a variable never is. -/
def Item.texts : Item → List Text
  | .declaration node => node.texts
  | .variable _ => []
  | .export e => [e.name]

def Module.texts (m : Module) : List Text :=
  m.name :: (Bucket.all.flatMap m.items).flatMap Item.texts

def Import.texts (i : Import) : List Text := i.module :: (i.binding.toList ++ i.names)

theorem Module.balanced_of_mem_items {m : Module} (h : ∀ t ∈ m.texts, Text.Balanced t) {b : Bucket}
    {item : Item} (hi : item ∈ m.items b) : ∀ t ∈ item.texts, Text.Balanced t := by
  intro t ht
  refine h t (List.mem_cons_of_mem _ (List.mem_flatMap.mpr ⟨item, ?_, ht⟩))
  exact List.mem_flatMap.mpr ⟨b, Bucket.mem_all b, hi⟩

theorem Import.line_balanced {i : Import} (h : ∀ t ∈ i.texts, Text.Balanced t) :
    Text.Balanced i.line := by
  simp only [texts, List.forall_mem_cons, List.forall_mem_append] at h
  obtain ⟨hmodule, hbinding, hnames⟩ := h
  have hbindingText : Text.Balanced i.bindingText := by
    simp only [bindingText]
    cases hb : i.binding with
    | none => exact Text.balanced_ofList rfl
    | some t => exact hbinding t (by simp [hb])
  have hnamesText : Text.Balanced i.namesText := by
    simp only [namesText]
    split
    · decide
    · exact (Text.balanced_join (Text.balanced_ofList rfl) hnames).enclosed (Text.balanced_ends rfl)
  have hbetween :
      Text.Balanced (if i.bindingText = "" ∨ i.names.isEmpty then ("" : Text) else ", ") := by
    split <;> decide
  have himport : Text.Balanced ("import type " ++ i.bindingText) :=
    .append (Text.balanced_ofList rfl) hbindingText
  have hfrom := ((himport.append hbetween).append hnamesText).append (t := " from '")
    (Text.balanced_ofList rfl)
  exact (hfrom.append hmodule).append (Text.balanced_ofList rfl)

theorem ModuleName.printed_balanced {rootName context : Text} (hroot : Text.Balanced rootName)
    (hcontext : Text.Balanced context) : Text.Balanced (printed rootName context) := by
  have hmark : Text.Balanced contextMark := by decide
  simp only [printed]
  split
  · exact hroot
  split
  · rename_i ns hns
    -- The mark has no brackets, so those of the namespace are those of its context.
    obtain ⟨rest, hrest, rfl⟩ := Option.map_eq_some_iff.mp hns
    have hsplit : context.toList = contextMark.toList ++ rest := eq_append_of_after? hrest
    rw [Text.Balanced, hsplit] at hcontext
    refine Text.Balanced.append (by decide) ?_
    rw [Text.Balanced, Text.toList_ofList]
    exact hmark.of_append hcontext
  · exact hcontext

namespace Sheet

open Traced Layout

theorem group_balanced {print : Item → Sheet} {items : List Item}
    (h : ∀ item ∈ items, (print item).Yields Layout.Balanced) :
    (group print items).Yields fun groups => ∀ l ∈ groups, l.Balanced := by
  simp only [group]
  split
  · exact yields_pure (by simp)
  · refine (yields_mapM h).bind fun layouts hl => yields_pure fun l hm => ?_
    obtain rfl := List.mem_singleton.mp hm
    exact .append (balanced_literal rfl) (balanced_joined (Text.balanced_ofList rfl) hl)

theorem declarationItem_balanced {print : Shape Printed → Sheet} {item : Item}
    (hprint : ∀ s : Shape Node, (∀ m ∈ s.parts, (Survey.balance .declarations).Surveyed m) →
      (Survey.balance .declarations).fine s.toHead →
      (print (s.map (Node.printed .declarations))).Yields Layout.Balanced)
    (h : ∀ t ∈ item.texts, Text.Balanced t) :
    (declarationItem print item).Yields Layout.Balanced := by
  cases item with
  | declaration node =>
    have hfine := Node.fine_of_texts h .declarations
    exact hprint node.shape (Survey.balance_lawful.parts_surveyed hfine)
      (hfine _ node.head_mem_heads)
  | _ => exact yields_fail _

theorem exportItem_balanced {item : Item} (h : ∀ t ∈ item.texts, Text.Balanced t) :
    (exportItem item).Yields Layout.Balanced := by
  have hline {name : Option Text} (hname : ∀ t ∈ name, Text.Balanced t) (isDefault : Bool) :
      (ofText (exportLine name isDefault)).Yields Layout.Balanced := by
    refine ofText_balanced (Text.Balanced.append ?_ (nameText_balanced hname))
    split <;> decide
  cases item with
  | declaration node => exact hline (Node.name_balanced h) _
  | «variable» v => exact yields_fail _
  | «export» e => exact hline (by simpa [Item.texts, Item.name] using h) _

theorem block_balanced {rootName : Text} {m : Module} (hroot : Text.Balanced rootName)
    (h : ∀ t ∈ m.texts, Text.Balanced t) : (block rootName m).Yields Layout.Balanced := by
  have hitem {b : Bucket} {item : Item} (hi : item ∈ m.items b) := m.balanced_of_mem_items h hi
  have hlaws : (Survey.balance .declarations).Lawful := Survey.balance_lawful
  refine Yields.bind (group_balanced fun item hi => ?_) fun types h₁ => ?_
  · exact declarationItem_balanced (fun _ => hlaws.typeAlias_sheet) (hitem (b := .types) hi)
  refine Yields.bind (group_balanced fun item hi => ?_) fun interfaces h₂ => ?_
  · exact declarationItem_balanced (fun _ hs hf => hlaws.container_sheet hs hf (by decide) _)
      (hitem (b := .interfaces) hi)
  refine Yields.bind (group_balanced fun item hi => ?_) fun functions h₃ => ?_
  · exact declarationItem_balanced (fun _ => hlaws.functionDeclaration_sheet)
      (hitem (b := .functions) hi)
  refine Yields.bind (group_balanced fun item hi => ?_) fun classes h₄ => ?_
  · exact declarationItem_balanced (fun _ hs hf => hlaws.container_sheet hs hf (by decide) _)
      (hitem (b := .classes) hi)
  refine Yields.bind (group_balanced fun item hi => ?_) fun exports h₅ => yields_pure ?_
  · exact exportItem_balanced (hitem (b := .exports) hi)
  have hgroups :
      (joined "\n\n" (types ++ interfaces ++ functions ++ classes ++ exports)).Balanced := by
    refine balanced_joined (Text.balanced_ofList rfl) ?_
    simp only [List.forall_mem_append]
    exact ⟨⟨⟨⟨h₁, h₂⟩, h₃⟩, h₄⟩, h₅⟩
  have hname := ModuleName.printed_balanced hroot (h m.name (by simp [Module.texts]))
  exact (balanced_literal rfl).row_cons
    ((balanced_text_iff.mpr hname).row_cons (hgroups.enclosed (Text.balanced_ends rfl)))

theorem file_balanced {rootName : Text} {imports : List Import} {modules : List Module}
    (hroot : Text.Balanced rootName) (hi : ∀ i ∈ imports, ∀ t ∈ i.texts, Text.Balanced t)
    (hm : ∀ m ∈ modules, ∀ t ∈ m.texts, Text.Balanced t) :
    (file rootName imports modules).Yields Layout.Balanced := by
  have hlines : Text.Balanced (Import.lines imports) := by
    refine Text.balanced_join (Text.balanced_ofList rfl) fun line hl => ?_
    obtain ⟨i, hmem, rfl⟩ := List.mem_map.mp hl
    exact Import.line_balanced (hi i hmem)
  have hhead : Text.Balanced (Import.head imports) := by
    rw [Import.head]
    split
    · decide
    · exact hlines.append (by decide)
  refine Yields.bind (yields_mapM fun m hmem =>
    block_balanced hroot (hm m (List.mem_filter.mp hmem).1)) fun blocks hb => yields_pure ?_
  exact (balanced_text_iff.mpr hhead).row_cons
    ((balanced_joined (Text.balanced_ofList rfl) hb).row_cons (balanced_literal rfl))

/-- Where the texts that are taken over have properly nested brackets, so does the text of a file,
whatever it imports and whatever its modules hold, and the text of a node, at every width. There is
a text as long as the items are in the buckets of their kind and the nodes are printable. -/
theorem output_balanced (width : Int) :
    (∀ (rootName : Text) (imports : List Import) (modules : List Module),
      (∀ t ∈ rootName :: (imports.flatMap Import.texts ++ modules.flatMap Module.texts),
        Text.Balanced t) →
      let sheet := file rootName imports modules
      (∀ layout, sheet.result = .ok layout → Text.Balanced (layout.render width)) ∧
        ((∀ m ∈ modules, ∀ b, ∀ item ∈ m.items b, item.Fits (fun _ => False) b) →
          ∃ layout, sheet.result = .ok layout)) ∧
    ∀ (vocabulary : Vocabulary) (n : Node), (∀ t ∈ n.texts, Text.Balanced t) →
      let sheet := (n.printed vocabulary).sheet
      (∀ layout, sheet.result = .ok layout → Text.Balanced (layout.render width)) ∧
        (n.printable = true → ∃ layout, sheet.result = .ok layout) := by
  refine ⟨fun rootName imports modules h => ?_, fun vocabulary n h => ?_⟩
  · simp only [List.forall_mem_cons, List.forall_mem_append, List.forall_mem_flatMap] at h
    obtain ⟨hroot, hi, hm⟩ := h
    refine ⟨fun layout hl => (file_balanced hroot hi hm).of_ok hl width, fun hfits => ?_⟩
    obtain ⟨layout, hl, -⟩ := (file_endsIn hfits).exists_ok
    exact ⟨layout, hl⟩
  · refine ⟨fun layout hl => (n.printed_balanced h vocabulary).of_ok hl width, fun hp => ?_⟩
    obtain ⟨layout, hl, -⟩ := (n.printed_endsIn vocabulary (.of_eq_true hp)).exists_ok
    exact ⟨layout, hl⟩

/-- A function with a destructured parameter of a tuple type, wrapped, below an import. -/
theorem output_balanced_wrapped :
    let pattern := Node.mk { kind := .objectBindingPattern,
                             elements := [.mk { kind := .bindingElement, name := some "a" }] }
    let tuple := Node.mk { kind := .tupleType, elementTypes := [.mk { kind := .stringKeyword }] }
    let parameter := Node.mk { kind := .parameter, binding := some pattern, type := some tuple }
    let function := Node.mk { kind := .functionDeclaration, name := some "f",
                              parameters := [parameter] }
    let imports := [{ module := "m", names := ["T"] : Import }]
    let modules := [{ name := "root", functions := [.declaration function] : Module }]
    let text : Text := "import type \x7b T \x7d from 'm'\n\ndeclare module 'lib' \x7b\n\t" ++
      "declare function f(\n\t\t\x7ba\x7d: [string]\n\t): any\n\x7d\n"
    (∀ t ∈ ("lib" : Text) :: (imports.flatMap Import.texts ++ modules.flatMap Module.texts),
        Text.Balanced t) ∧
      ((file "lib" imports modules).result.map (Layout.render 10)).toOption = some text ∧
      Text.Balanced text := by
  intro pattern tuple parameter function imports modules text
  have htexts : ∀ t ∈ ("lib" : Text) ::
      (imports.flatMap Import.texts ++ modules.flatMap Module.texts),
      Text.Balanced t := by decide +kernel
  have hrender : ((file "lib" imports modules).result.map (Layout.render 10)).toOption =
      some text := by decide +kernel
  have hprintable : function.printable = true := by decide +kernel
  obtain ⟨hbalanced, hok⟩ := (output_balanced 10).1 "lib" imports modules htexts
  obtain ⟨layout, hl⟩ := hok fun m hm b item hi => by
    obtain rfl := List.mem_singleton.mp hm
    cases b with
    | functions =>
      obtain rfl := List.mem_singleton.mp hi
      exact Allows.of_eq_true hprintable
    | _ => simp [Module.items] at hi
  have hsame := hrender
  rw [hl] at hsame
  exact ⟨htexts, hrender, Option.some.inj hsame ▸ hbalanced layout hl⟩

end Sheet
end Libdef
