import Mathlib.Data.List.Nodup
import Libdef.Conversion.Session
import Libdef.Proofs.Collection

set_option autoImplicit false

namespace Libdef.Conversion

variable {c : Conversion}

structure Consistent (c : Conversion) : Prop where
  index_eq : ∀ (i : Nat) (h : Handle), c.store.handles[i]? = some h → h.index = i
  stored_iff : ∀ h, c.store.contains h = true ↔ 0 ≤ h.index ∧ h.index < c.store.size
  filed_once : ∀ h ∈ c.store.handles, (c.contexts.list.flatMap Context.handles).count h = 1
  filed_iff : ∀ x ∈ c.contexts.list, ∀ b h,
    h ∈ x.bucket b ↔ h ∈ c.store.handles ∧ h.context = x.name ∧ h.bucket = b
  ascending : ∀ x ∈ c.contexts.list, ∀ b, (x.bucket b).Pairwise fun g h => g.index < h.index
  names_nodup : c.contexts.names.Nodup
  root_first : c.contexts.names.head? = some ModuleName.root

namespace WellFiled

variable (h : c.WellFiled) {x : Context} (hx : x ∈ c.contexts.list)

include h hx

theorem mem_bucket {b : Bucket} {g : Handle} :
    g ∈ x.bucket b ↔ g ∈ c.store.handles ∧ g.context = x.name ∧ g.bucket = b := by
  rw [h.lists.context_bucket_eq hx]
  simp

theorem bucket_ascending (b : Bucket) : (x.bucket b).Pairwise fun g h => g.index < h.index := by
  rw [h.lists.context_bucket_eq hx]
  exact h.numbered.ascending.filter _

theorem mem_context {g : Handle} :
    g ∈ x.handles ↔ g ∈ c.store.handles ∧ g.context = x.name := by
  simp only [Context.handles, List.mem_flatMap, h.mem_bucket hx]
  exact ⟨fun ⟨_, _, hg, hc, _⟩ => ⟨hg, hc⟩, fun ⟨hg, hc⟩ => ⟨_, Bucket.mem_all _, hg, hc, rfl⟩⟩

theorem context_nodup {buckets : List Bucket} (hb : buckets.Nodup) :
    (buckets.flatMap x.bucket).Nodup := by
  refine List.nodup_flatMap.mpr ⟨fun b _ => ?_, ?_⟩
  · rw [h.lists.context_bucket_eq hx]
    exact h.numbered.nodup.filter _
  · refine hb.imp fun {a b} hab g hga hgb => hab ?_
    rw [← ((h.mem_bucket hx).mp hga).2.2, ← ((h.mem_bucket hx).mp hgb).2.2]

end WellFiled

theorem WellFiled.buckets_nodup (h : c.WellFiled) {buckets : List Bucket} (hb : buckets.Nodup) :
    (c.contexts.list.flatMap fun x => buckets.flatMap x.bucket).Nodup := by
  refine List.nodup_flatMap.mpr ⟨fun x hx => h.context_nodup hx hb, ?_⟩
  have hnames : c.contexts.list.Pairwise fun x y => x.name ≠ y.name :=
    List.pairwise_map.mp h.lists.nodup
  refine hnames.imp_of_mem fun {x y} hx hy hxy g hgx hgy => hxy ?_
  obtain ⟨a, -, hga⟩ := List.mem_flatMap.mp hgx
  obtain ⟨b, -, hgb⟩ := List.mem_flatMap.mp hgy
  rw [← ((h.mem_bucket hx).mp hga).2.1, ← ((h.mem_bucket hy).mp hgb).2.1]

theorem WellFiled.nodup (h : c.WellFiled) : (c.contexts.list.flatMap Context.handles).Nodup :=
  h.buckets_nodup (by decide)

theorem WellFiled.consistent (h : c.WellFiled) : c.Consistent where
  index_eq := h.numbered
  stored_iff := Store.contains_iff
  filed_once g hg := by
    obtain ⟨x, hx, hname⟩ := List.mem_map.mp (h.lists.context_mem g hg)
    refine List.count_eq_one_of_mem h.nodup (List.mem_flatMap.mpr ⟨x, hx, ?_⟩)
    exact (h.mem_context hx).mpr ⟨hg, hname.symm⟩
  filed_iff x hx b g := h.mem_bucket hx
  ascending x hx b := h.bucket_ascending hx b
  names_nodup := h.lists.nodup
  root_first := h.lists.root

/-- Any fault but that of a handle without an item. -/
def NotDangling (e : Fault) : Prop := ∀ h, e ≠ .dangling h

theorem notDangling_of_isMalformed {e : Fault} (h : e.isMalformed = true) : NotDangling e := by
  rintro g rfl
  cases h

theorem allows_notDangling (b : Bool) : Allows NotDangling b :=
  .inl fun _ => notDangling_of_isMalformed

theorem fits_notDangling (c : Conversion) : c.Fits NotDangling :=
  c.fits_of_tolerant (fun _ => notDangling_of_isMalformed) (by simp [NotDangling])

theorem filing_notDangling {site : Site} (h : site.Sound NotDangling) :
    site.filing.EndsIn NotDangling := by
  have hends := h.settled.ends
  simp only [Traced.EndsIn]
  cases hr : site.filing.result with
  | ok u => trivial
  | error e =>
    rw [hr] at hends
    rcases hends with he | he
    · exact he
    · rcases Site.offence_cases he with ⟨kind, rfl⟩ | ⟨kind, rfl⟩ <;> simp [Ends, NotDangling]

theorem WellFiled.collectTree (h : c.WellFiled) (tree : Json) (context : Text) :
    (c.collectTree tree context).Keeps WellFiled NotDangling := by
  have hsound := tree.tour_sound.1 (allows_notDangling _)
  rw [collectTree_eq]
  exact ⟨h.enterAll _,
    Traced.endsIn_forM fun site hs => filing_notDangling (hsound.block context site hs)⟩

theorem WellFiled.collectStatement (h : c.WellFiled) (statement : Json) (context : Text) :
    (c.collectStatement statement context).Keeps WellFiled NotDangling := by
  have hsound := statement.tour_sound.1 (allows_notDangling _)
  rw [collectStatement_eq]
  exact ⟨h.enterAll _,
    Traced.endsIn_forM fun site hs => filing_notDangling (hsound.statement context site hs)⟩

theorem WellFiled.resolve (h : c.WellFiled) : c.resolve.Keeps WellFiled NotDangling := by
  -- Every item fits here, since ill-typed ones are faults that are not excluded.
  obtain ⟨⟨hs, -⟩, hends⟩ := resolve_keeps h c.fits_notDangling
  exact ⟨hs.wellFiled ((c.grants_frame _).1.wellFiled h), hends⟩

theorem WellFiled.perform (h : c.WellFiled) (action : Action) :
    (c.perform action).Keeps WellFiled NotDangling := by
  cases action with
  | insert item context b =>
    cases item with
    | none => exact ⟨h, by simp [Conversion.perform, insertGiven, Except.map, Ends, NotDangling]⟩
    | some item => exact ⟨h.insert item context b, trivial⟩
  | requestContext name => exact ⟨h.requestContext name, trivial⟩
  | pushNamespace name => exact ⟨h.pushNamespace name, trivial⟩
  | collectTree tree context => exact h.collectTree tree context
  | collectStatement statement context => exact h.collectStatement statement context
  | resolve => exact h.resolve
  | render =>
    refine ⟨h.congr rfl rfl, ?_⟩
    exact (render_ends h c.fits_notDangling).map fun _ _ => trivial

theorem WellFiled.performAll (h : c.WellFiled) (actions : List Action) :
    (c.performAll actions).WellFiled := by
  induction actions generalizing c with
  | nil => exact h
  | cons action rest ih => exact ih (h.perform action).state

theorem convert_notDangling (options : Options) (trees : List Json) :
    Ends (fun _ => True) NotDangling (convert options trees) := by
  have hcollected : (collectTrees trees { options := options }).Keeps WellFiled NotDangling :=
    forEach_keeps (fun tree _ d hd => hd.collectTree tree _) (.start options)
  have hlinked := hcollected.andThen hcollected.state.resolve
  refine hlinked.ends.bind fun _ _ => ?_
  refine (render_ends hlinked.state (fits_notDangling _)).bind fun _ _ => trivial

/-- Whatever is done to a conversion, its store and its contexts stay consistent, and every item
that is filed is found: for the modules, for each bucket of each context, in any further action,
and in a conversion of whole trees. -/
theorem session_consistent (options : Options) (actions : List Action) :
    let c := performAll { options := options } actions
    c.Consistent ∧
      (∃ modules, c.modules = .ok modules) ∧
      (∀ context b, ∃ items, c.items context b = .ok items) ∧
      (∀ action h, (c.perform action).result ≠ .error (.dangling h)) ∧
      ∀ trees h, convert options trees ≠ .error (.dangling h) := by
  intro c
  have hw : c.WellFiled := (WellFiled.start options).performAll actions
  refine ⟨hw.consistent, ⟨_, modules_eq hw⟩, fun context b => ⟨_, items_eq hw context b⟩, ?_, ?_⟩
  · exact fun action h he => (hw.perform action).ends.fault he h rfl
  · exact fun trees h he => (convert_notDangling options trees).fault he h rfl

end Libdef.Conversion
