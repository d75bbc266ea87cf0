import Libdef.Proofs.Printing
import Libdef.Proofs.Reading
import Libdef.Proofs.Tour

/-!
What comes of a single site: the items it files fit their buckets, and where the tree is of the
right sort it fails for one of two reasons only, a declaration without a name or a block without
statements.
-/

set_option autoImplicit false

namespace Libdef

variable {Q : Fault → Prop}

/-! A declaration that is read has the kind it is read as, and its name is the name in the tree. -/

namespace Node

variable {j : Json} {part : Text → Reading}

theorem readHead_head (kind : Kind) :
    Ends (fun head : Head => head.kind = kind ∧ j.ownName = .ok head.name) (fun _ => True)
      (readHead j kind) := by
  cases hn : j.ownName with
  | error e => simp [readHead, hn, Bind.bind, Except.bind, Ends]
  | ok name =>
    simp only [readHead, hn]
    exact (Ends.any j.modifiers).bind fun modifiers _ => ⟨rfl, rfl⟩

theorem readSignature_head (kind : Kind) :
    Ends (fun s : Shape Node => s.kind = kind ∧ j.ownName = .ok s.name) (fun _ => True)
      (readSignature j part kind) := by
  refine (readHead_head kind).bind fun head hh => ?_
  refine (Ends.any (part "parameters").nodes).bind fun _ _ => ?_
  refine (Ends.any (part "typeParameters").nodes).bind fun _ _ => ?_
  exact (Ends.any (part "type").node).bind fun _ _ => hh

theorem readContainer_head (kind : Kind) :
    Ends (fun s : Shape Node => s.kind = kind ∧ j.ownName = .ok s.name) (fun _ => True)
      (readContainer j part kind) := by
  refine (readHead_head kind).bind fun head hh => ?_
  refine (Ends.any (part "typeParameters").nodes).bind fun _ _ => ?_
  refine (Ends.any (part "heritageClauses").nodes).bind fun _ _ => ?_
  exact (Ends.any (part "members").nodes).bind fun _ _ => hh

end Node

theorem Json.field?_of_get {j i : Json} {key : Text} (h : j.get key = i) (hi : i.isNull = false) :
    j.field? key = some i := by
  subst h
  cases hf : j.field? key with
  | none => simp [get, hf, isNull] at hi
  | some i => simp [get, hf]

theorem Json.isObj_of_field? {j i : Json} {key : Text} (h : j.field? key = some i) :
    j.isObj = true := by
  cases j <;> simp_all [field?, isObj]

theorem Json.isObj_of_get {j i : Json} {key : Text} (h : j.get key = i) (hi : i.isNull = false) :
    j.isObj = true :=
  isObj_of_field? (field?_of_get h hi)

/-- The kind of the declarations in a bucket; variables and exports are no declarations. -/
def Bucket.kind? : Bucket → Option Kind
  | .functions => some .functionDeclaration
  | .classes => some .classDeclaration
  | .types => some .typeAliasDeclaration
  | .interfaces => some .interfaceDeclaration
  | .variables | .exports => none

def Bucket.visitor? : Bucket → Option Visitor
  | .functions => some (.signature .functionDeclaration)
  | .classes => some (.container .classDeclaration)
  | .types => some .typeAlias
  | .interfaces => some (.container .interfaceDeclaration)
  | .variables | .exports => none

open Node in
theorem Bucket.visitor_head {bucket : Bucket} {v : Visitor} (h : bucket.visitor? = some v)
    {j : Json} {part : Text → Reading} :
    Ends (fun s : Shape Node => bucket.kind? = some s.kind ∧ j.ownName = .ok s.name)
      (fun _ => True) (v.read j part) := by
  have hkind {kind : Kind} (hb : bucket.kind? = some kind) (s : Shape Node)
      (hs : s.kind = kind ∧ j.ownName = .ok s.name) :
      bucket.kind? = some s.kind ∧ j.ownName = .ok s.name := ⟨hs.1 ▸ hb, hs.2⟩
  cases bucket <;> cases h
  case functions => exact (readSignature_head _).imp (hkind rfl)
  case classes => exact (readContainer_head _).imp (hkind rfl)
  case interfaces => exact (readContainer_head _).imp (hkind rfl)
  case types =>
    refine (readHead_head _).bind fun head hh => ?_
    refine (Ends.any (part "typeParameters").nodes).bind fun _ _ => ?_
    exact (Ends.any (part "type").node).bind fun _ _ => hkind rfl _ hh

theorem Filing.of_declarationBucket? {j : Json} {bucket : Bucket}
    (h : declarationBucket? (j.get "kind") = some bucket) :
    (bucket ≠ .variables ∧ bucket ≠ .exports) ∧ j.isObj = true ∧
      ∃ v, Visitor.ofJson? j.rawKind = some v ∧ bucket.visitor? = some v := by
  have htable : ∀ entry ∈ declarationBuckets,
      (entry.2 ≠ .variables ∧ entry.2 ≠ .exports) ∧
        Visitor.table.lookup entry.1 = entry.2.visitor? := by decide
  simp only [declarationBucket?] at h
  split at h
  · rename_i name hk
    obtain ⟨before, after, hentries, -⟩ := List.lookup_eq_some_iff.mp h
    obtain ⟨hne, hv⟩ := htable (name, bucket) (by simp [hentries])
    have hf := Json.field?_of_get hk rfl
    have hvisitor : Visitor.ofJson? j.rawKind = bucket.visitor? := by
      simpa [Json.rawKind, hf, Visitor.ofJson?] using hv
    refine ⟨hne, Json.isObj_of_field? hf, ?_⟩
    rw [hvisitor]
    cases bucket <;> simp_all [Bucket.visitor?]
  · cases h

theorem Node.ofJson_head {j : Json} {bucket : Bucket}
    (h : Filing.declarationBucket? (j.get "kind") = some bucket) :
    Ends (fun o => ∃ n, o = some n ∧ bucket.kind? = some n.head.kind ∧ j.ownName = .ok n.name)
      (fun _ => True) (Node.ofJson j) := by
  obtain ⟨-, ho, v, hv, hb⟩ := Filing.of_declarationBucket? h
  rw [Node.ofJson, Json.reading_eq]
  cases j with
  | obj fields =>
    simp only [Reading.step, Reading.nodeOf, Node.readObject, Node.readShape, hv]
    exact ((Bucket.visitor_head hb).map fun s hs => hs).map fun n hn => ⟨n, rfl, hn⟩
  | _ => cases ho

namespace Site

/-- The fault for which a site of a well-typed tree fails. -/
def offence : Site → Option Fault
  | .declaration j _ _ =>
    match j.ownName with
    | .ok name => if name.getD "" = "" then some (.unnamed (j.field? "kind")) else none
    | .error _ => none
  | .unlisted j => some (.noStatements (j.field? "kind"))
  | _ => none

theorem offence_cases {site : Site} {e : Fault} (h : site.offence = some e) :
    (∃ kind, e = .unnamed kind) ∨ ∃ kind, e = .noStatements kind := by
  cases site with
  | declaration j bucket context =>
    simp only [offence] at h
    split at h
    · split at h
      · exact .inl ⟨_, (Option.some.inj h).symm⟩
      · cases h
    · cases h
  | unlisted j => exact .inr ⟨_, (Option.some.inj h).symm⟩
  | _ => cases h

/-- The site stands for values of the right sort, as far as `Q` does not let other values pass. -/
def Sound (Q : Fault → Prop) : Site → Prop
  | .declaration j bucket _ =>
    Allows Q j.wellTyped ∧ Filing.declarationBucket? (j.get "kind") = some bucket
  | .declarator j _ | .exportAssignment j _ | .other j _ => Allows Q j.wellTyped
  | .malformed fault => Q fault
  | _ => True

end Site

theorem Json.referencedName_ends {j : Json} (h : Allows Q j.form.part) :
    Ends (fun name => Allows Q name.fitsName) Q j.referencedName := by
  have hnull : Allows Q Json.null.fitsName := .of_eq_true rfl
  simp only [referencedName]
  split
  · rename_i ht
    split
    · rename_i ho
      have hw : Allows Q j.wellTyped := by
        rw [form_part] at h
        cases j <;> simp_all [isNull, isObj]
      split
      · exact hw.fields.fitsName (by decide)
      split
      · exact hw.fields.fitsName (by decide)
      · exact hnull
    · rename_i ho
      exact h.fault_of_ne (fun hp => ho (isObj_of_part hp ht)) rfl
  · exact hnull

namespace Filing

/-- The items filed fit their buckets, and a failure is one of `Q`. -/
structure Fit (Q : Fault → Prop) (filing : Filing) : Prop where
  ends : filing.EndsIn Q
  items : ∀ item context b, .item item context b ∈ filing.log → item.Fits Q b

theorem fit_fail {e : Fault} (h : Q e) : Fit Q (Traced.fail e) :=
  ⟨Traced.endsIn_fail h, by simp⟩

theorem fit_report (d : Diagnostic) : Fit Q (Traced.tell (.report d)) :=
  ⟨Traced.endsIn_tell _, by simp⟩

theorem fit_item {item : Item} {context : Text} {b : Bucket} (h : item.Fits Q b) :
    Fit Q (Traced.tell (.item item context b)) := by
  refine ⟨Traced.endsIn_tell _, fun item' context' b' hm => ?_⟩
  simp only [Traced.log_tell, List.mem_singleton, Entry.item.injEq] at hm
  obtain ⟨rfl, rfl, rfl⟩ := hm
  exact h

theorem fit_lift_bind {α : Type} {P : α → Prop} {r : Except Fault α} {f : α → Filing}
    (hr : Ends P Q r) (hf : ∀ a, P a → Fit Q (f a)) : Fit Q (Traced.lift r >>= f) := by
  cases r with
  | error e =>
    rw [Traced.bind_of_error (Traced.result_lift _)]
    exact ⟨hr, by simp⟩
  | ok a =>
    rw [Traced.bind_of_ok (Traced.result_lift _)]
    exact ⟨(hf a hr).ends, by simpa using (hf a hr).items⟩

theorem variableDeclaration_fit {j : Json} (h : Allows Q j.wellTyped) (context : Text) :
    Fit Q (variableDeclaration context j) := by
  simp only [variableDeclaration]
  split
  · refine fit_fail (h.fault_of_ne (fun hw => ?_) rfl)
    rw [Json.wellTyped_eq] at hw
    simp_all
  refine fit_lift_bind (Json.nameText_ends _ h.fields.name) fun name _ => ?_
  have htype := Json.referencedName_ends (h.fields.part "type" (by decide))
  refine fit_lift_bind htype fun typeName ht => ?_
  refine fit_lift_bind (P := fun _ => True) ?_ fun parts _ => ?_
  · refine (Json.nameText_ends _ ht).bind fun o _ => ?_
    cases o <;> trivial
  · cases parts with
    | none => exact fit_report _
    | some parts =>
      dsimp only
      split
      · exact fit_report _
      · exact fit_item trivial

theorem exportAssignment_fit {j : Json} (h : Allows Q j.wellTyped) (context : Text) :
    Fit Q (exportAssignment j context) := by
  refine fit_lift_bind (Json.nameText_ends _ (h.fields.fitsName (by decide))) fun name _ => ?_
  split
  · exact fit_report _
  · exact fit_item trivial

theorem otherStatement_fit {j : Json} (h : Allows Q j.wellTyped) (context : Text) :
    Fit Q (otherStatement j context) :=
  fit_lift_bind (Json.nameText_ends _ h.fields.name) fun _ _ => fit_report _

end Filing

namespace Site

theorem declarationOfJson_ends {j : Json} {bucket : Bucket} (context : Text)
    (hj : Allows Q j.wellTyped) (hb : Filing.declarationBucket? (j.get "kind") = some bucket) :
    Ends (fun n => Allows Q n.printable ∧ (declaration j bucket context).offence = none)
      (fun e => Q e ∨ (declaration j bucket context).offence = some e)
      (Node.declarationOfJson j) := by
  have hpart : Allows Q j.form.part := hj.imp fun hw => by simp [Json.form_part, hw]
  have hread := Node.ofJson_ends hpart
  have hname := Node.ofJson_head hb
  simp only [Node.declarationOfJson, offence]
  cases hr : Node.ofJson j with
  | error e =>
    rw [hr] at hread
    exact .inl hread
  | ok o =>
    rw [hr] at hread hname
    obtain ⟨n, rfl, -, hn⟩ := hname
    simp only [hn, Bind.bind, Except.bind]
    by_cases he : n.name.getD "" = ""
    · simp [he, Ends]
    · simpa [he, Ends, Pure.pure, Except.pure] using hread

structure Settled (Q : Fault → Prop) (site : Site) : Prop where
  ends : Ends (fun _ => site.offence = none) (fun e => Q e ∨ site.offence = some e)
    site.filing.result
  items : ∀ item context b, .item item context b ∈ site.filing.log → item.Fits Q b

theorem Settled.of_fit {site : Site} (ho : site.offence = none) (h : Filing.Fit Q site.filing) :
    site.Settled Q := by
  refine ⟨?_, h.items⟩
  have he := h.ends
  simp only [Traced.EndsIn] at he
  cases hr : site.filing.result with
  | error e =>
    rw [hr] at he
    exact .inl he
  | ok u => exact ho

theorem settled_declaration {j : Json} {bucket : Bucket} {context : Text}
    (h : (declaration j bucket context).Sound Q) : (declaration j bucket context).Settled Q := by
  obtain ⟨hj, hb⟩ := h
  obtain ⟨⟨hv, hx⟩, -⟩ := Filing.of_declarationBucket? hb
  have hends := declarationOfJson_ends context hj hb
  cases hr : Node.declarationOfJson j with
  | error e =>
    rw [hr] at hends
    have hfiling : (declaration j bucket context).filing = Traced.fail e := by
      simp only [filing, Filing.declaration, hr]
      exact Traced.bind_of_error (Traced.result_lift _) _
    exact ⟨by rw [hfiling]; exact hends, by simp [hfiling]⟩
  | ok n =>
    rw [hr] at hends
    have hfiling : (declaration j bucket context).filing =
        Traced.tell (.item (.declaration n) context bucket) := by
      simp only [filing, Filing.declaration, hr]
      exact Traced.bind_of_ok (Traced.result_lift _) _
    refine .of_fit hends.2 ?_
    rw [hfiling]
    refine Filing.fit_item ?_
    cases bucket with
    | «variables» => exact (hv rfl).elim
    | exports => exact (hx rfl).elim
    | _ => exact hends.1

theorem Sound.settled {site : Site} (h : site.Sound Q) : site.Settled Q := by
  cases site with
  | declaration j bucket context => exact settled_declaration h
  | declarator j context => exact .of_fit rfl (Filing.variableDeclaration_fit h context)
  | exportAssignment j context => exact .of_fit rfl (Filing.exportAssignment_fit h context)
  | other j context => exact .of_fit rfl (Filing.otherStatement_fit h context)
  | unnamedModule context => exact .of_fit rfl (Filing.fit_report _)
  | knownNamespace name => exact ⟨rfl, by simp [filing]⟩
  | knownContext name => exact ⟨rfl, by simp [filing]⟩
  | unlisted j => exact ⟨.inr rfl, by simp [filing]⟩
  | malformed fault => exact .of_fit rfl (Filing.fit_fail h)

end Site

/-! The tour of a value of the right sort has sound sites only. -/

theorem Filing.isNamespace_ends {j : Json} (h : FitFields Q j) :
    Ends (fun _ => True) Q (Filing.isNamespace (j.get "flags")) := by
  simp only [Filing.isNamespace]
  split
  · trivial
  · trivial
  · rename_i hint hbool
    split
    · rename_i ht
      refine h.flags.fault_of_ne (fun hf => ?_) rfl
      cases hv : j.field? "flags" with
      | none => simp [Json.get, hv, Json.truthy] at ht
      | some flags =>
        rw [hv] at hf
        cases flags with
        | int n => exact hint n (Json.get_of_field? hv)
        | _ => cases hf
    · trivial

namespace Tour

/-- A tour of a node: it has sound sites only, unless it is gone through as a list. -/
structure SoundNode (Q : Fault → Prop) (t : Tour) : Prop where
  statement : ∀ context, ∀ site ∈ t.statement context, site.Sound Q
  block : ∀ context, ∀ site ∈ t.block context, site.Sound Q
  module : ∀ context qualifier, ∀ site ∈ t.module context qualifier, site.Sound Q

variable {j : Json}

theorem sound_malformed {e : Fault} (h : Q e) : ∀ site ∈ [Site.malformed e], site.Sound Q := by
  simpa [Site.Sound] using h

theorem declarators_sound (h : Allows Q j.form.statements) (context : Text) :
    ∀ site ∈ declarators context j, site.Sound Q := by
  rw [Json.form_statements] at h
  cases j with
  | null => simp [declarators, Json.truthy]
  | arr items =>
    intro site hsite
    obtain ⟨i, hi, rfl⟩ := List.mem_map.mp hsite
    exact Allows.all_iff.mp h i hi
  | str _ | obj _ =>
    simp only [declarators]
    split
    · simp
    · exact sound_malformed (h.fault rfl)
  | bool _ | int _ | real _ =>
    simp only [declarators]
    split
    · exact sound_malformed (h.fault rfl)
    · simp

theorem variableStatement_sound (h : Allows Q j.wellTyped) (context : Text) :
    ∀ site ∈ variableStatement j context, site.Sound Q := by
  have hlist := h.fields.part "declarationList" (by decide)
  simp only [variableStatement]
  split
  · rename_i ht
    split
    · rename_i ho
      have hw : Allows Q (j.get "declarationList").wellTyped := by
        rw [Json.form_part] at hlist
        cases hv : j.get "declarationList" <;> simp_all [Json.isNull, Json.isObj]
      exact declarators_sound (hw.fields.statements "declarations" (by decide)) context
    · rename_i ho
      exact sound_malformed (hlist.fault_of_ne (fun hp => ho (Json.isObj_of_part hp ht)) rfl)
  · simp

theorem moduleOf_sound (h : Allows Q j.wellTyped) {body : Tour}
    (hbody : (j.get "body").isObj = true → body.SoundNode Q) (context : Text)
    (qualifier : Option Text) : ∀ site ∈ moduleOf j body context qualifier, site.Sound Q := by
  have hinner := h.fields.part "body" (by decide)
  have hname := Json.nameText_ends (j.get "name") h.fields.name
  have hflags := Filing.isNamespace_ends h.fields
  -- A body that is there but is no object is not well-typed, so its fault is a tolerated one.
  have hfault (hn : ¬(j.get "body").isNull = true) (ho : ¬(j.get "body").isObj = true) :
      Q .noFields := by
    refine hinner.fault_of_ne (fun hp => ?_) rfl
    rw [Json.form_part] at hp
    cases hv : j.get "body" <;> simp_all [Json.isNull, Json.isObj, Json.wellTyped_eq]
  simp only [moduleOf]
  cases hn : (j.get "name").nameText with
  | error e =>
    exact sound_malformed (hname.fault hn)
  | ok own =>
    dsimp only
    split
    · simp [Site.Sound]
    cases hf : Filing.isNamespace (j.get "flags") with
    | error e =>
      exact sound_malformed (hflags.fault hf)
    | ok isNamespace =>
      cases isNamespace with
      | true =>
        simp only [namespaceOf]
        split
        · simp [Site.Sound]
        split
        · exact sound_malformed (hfault ‹_› (by simp_all))
        have hb := hbody (by simp_all)
        split
        · exact hb.module _ _
        · simpa [Site.Sound] using hb.block _
      | false =>
        simp only [plainModuleOf, List.forall_mem_cons]
        refine ⟨trivial, ?_⟩
        split
        · simp
        split
        · exact sound_malformed (hfault ‹_› (by simp_all))
        have hb := hbody (by simp_all)
        split
        · exact hb.statement _
        · exact hb.block _

theorem statementOf_sound (h : Allows Q j.wellTyped) {module : Option Text → List Site}
    (hmodule : ∀ site ∈ module none, site.Sound Q) (context : Text) :
    ∀ site ∈ statementOf j module context, site.Sound Q := by
  simp only [statementOf]
  split
  · exact hmodule
  split
  · refine sound_malformed (h.fields.kind.fault_of_ne (fun ht => ?_) rfl)
    simp_all [Json.not_container_of_absentOrText ht]
  cases hb : Filing.declarationBucket? (j.get "kind") with
  | some bucket => simpa [Site.Sound] using ⟨h, hb⟩
  | none =>
    dsimp only
    split
    · exact variableStatement_sound h context
    split
    · simpa [Site.Sound] using h
    · simpa [Site.Sound] using h

theorem statementsOf_sound {items : List Tour} (hn : j.isNull = false)
    (h : Allows Q j.form.statements)
    (hitems : ∀ context, ∀ t ∈ items, ∀ site ∈ t.statement context, site.Sound Q)
    (context : Text) : ∀ site ∈ statementsOf j items context, site.Sound Q := by
  rw [Json.form_statements] at h
  cases j with
  | null => cases hn
  | arr _ =>
    intro site hsite
    obtain ⟨t, ht, hsite⟩ := List.mem_flatMap.mp hsite
    exact hitems context t ht site hsite
  | str _ | obj _ =>
    simp only [statementsOf]
    split
    · simp
    · exact sound_malformed (h.fault rfl)
  | bool _ | int _ | real _ => exact sound_malformed (h.fault rfl)

theorem step_statements (j : Json) (items : List Tour) (field : Text → Option Tour) :
    (step j items field).statements = statementsOf j items := by
  cases j <;> rfl

end Tour

namespace Json

theorem tour_part {j : Json} {key : Text} (h : (j.get key).isNull = false) :
    ((j.field? key).map tour).getD (Tour.failing .noFields) = (j.get key).tour := by
  rw [field?_of_get rfl h]
  rfl

theorem tour_block {j : Json} {statements : List Json} (h : j.get "statements" = .arr statements)
    (context : Text) :
    j.tour.block context = statements.flatMap fun s => s.tour.statement context := by
  have hn : (j.get "statements").isNull = false := by rw [h]; rfl
  have ho := isObj_of_field? (field?_of_get h rfl)
  cases j with
  | obj fields =>
    rw [tour_eq]
    simp only [Tour.step, Tour.blockOf, hn, Bool.false_eq_true, if_false, tour_part hn]
    rw [h, tour_eq, Tour.step_statements]
    simp only [Tour.statementsOf, items, List.flatMap_map]
  | _ => cases ho

theorem isNull_of_isObj {j : Json} (h : j.isObj = true) : j.isNull = false := by
  cases j <;> simp_all [isObj, isNull]

theorem tour_sound (j : Json) :
    (Allows Q j.wellTyped → j.tour.SoundNode Q) ∧
      (j.isNull = false → Allows Q j.form.statements →
        ∀ context, ∀ site ∈ j.tour.statements context, site.Sound Q) := by
  -- Both at once: a block goes on with a list of statements, and a list with its nodes.
  induction j using Json.induct with
  | h j ih =>
    rw [tour_eq]
    refine ⟨fun h => ?_, fun hn h context => ?_⟩
    · cases j with
      | obj fields =>
        have hbody (ho : ((Json.obj fields).get "body").isObj = true) :
            (((Json.obj fields).field? "body").map tour |>.getD (Tour.failing .noFields)).SoundNode
              Q := by
          have hn := isNull_of_isObj ho
          have hw := h.fields.part "body" (by decide)
          simp only [form_part, hn, Bool.false_or] at hw
          rw [tour_part hn]
          exact (ih _ (mem_children_of_field? (field?_of_get rfl hn))).1 hw
        have hmodule := Tour.moduleOf_sound h hbody
        refine ⟨fun context => ?_, fun context => ?_, hmodule⟩
        · exact Tour.statementOf_sound h (hmodule context none) context
        · simp only [Tour.step, Tour.blockOf]
          split
          · simp [Site.Sound]
          · rename_i hs
            have hn : ((Json.obj fields).get "statements").isNull = false := by simpa using hs
            rw [tour_part hn]
            exact (ih _ (mem_children_of_field? (field?_of_get rfl hn))).2 hn
              (h.fields.statements "statements" (by decide)) context
      | _ =>
        have hfault : Q .noFields := h.fault_of_ne (by simp [wellTyped_eq, isObj]) rfl
        exact ⟨fun _ => Tour.sound_malformed hfault, fun _ => Tour.sound_malformed hfault,
          fun _ _ => Tour.sound_malformed hfault⟩
    · rw [Tour.step_statements]
      refine Tour.statementsOf_sound hn h (fun context t ht => ?_) context
      obtain ⟨i, hi, rfl⟩ := List.mem_map.mp ht
      rw [form_statements] at h
      cases j with
      | arr items =>
        exact ((ih i (mem_children_of_mem_items hi)).1 (Allows.all_iff.mp h i hi)).statement context
      | _ => cases hi

end Json

end Libdef
