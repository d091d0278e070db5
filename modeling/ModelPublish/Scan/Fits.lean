import ModelPublish.Scan.SaveSteps

/-!
# The models whose numbers fit

The sizes and the positions that the writer's words can hold, told chain by chain as the loops meet
them, and item by item as a reader would ask.
-/

namespace ModelPublish.Scan
open Packed

/-! ### Chain by chain -/

/-- A condition on every item of a chain, where it lies. -/
def ChainFits {β : Type} (size : β → Nat) (fits : Nat → Bool → β → Prop) : Nat → List β → Prop
  | _, [] => True
  | ofs, b :: rest => fits ofs rest.isEmpty b ∧ ChainFits size fits (ofs + size b) rest

/-- A position that a link may have to name, and the running offset behind the item. -/
def PlaceFits (last : Bool) (behind : Nat) : Prop := (last = false → behind < 2 ^ 31) ∧ behind < 2 ^ 32

namespace SaveEnv
variable (env : SaveEnv)

def SubsetFits (ofs : Nat) (last : Bool) (s : TdModelSubset) : Prop :=
  s.payloadSize < payloadLimit ∧ PlaceFits last (ofs + env.subsetSize s)

def PartFits (ofs : Nat) (last : Bool) (p : TdModelPart) : Prop :=
  ChainFits env.subsetSize env.SubsetFits (ofs + 44) p.Subsets ∧ ofs + 44 < 2 ^ 31 ∧
    PlaceFits last (ofs + env.partSize p)

def MaterialFits (ofs : Nat) (last : Bool) (m : TdModelMaterial) : Prop :=
  PlaceFits last (ofs + materialSize m)

def TextureFits (ofs : Nat) (last : Bool) (t : TdModelTextureSlot) : Prop :=
  t.uiSize.toNat < payloadLimit ∧ PlaceFits last (ofs + env.textureSize t)

/-- Every payload, link and position fits, told chain by chain. -/
def ChainsFit (m : TdScanModel) : Prop :=
  ChainFits env.partSize env.PartFits 46 m.Parts ∧
    (m.materialList.isEmpty = false → env.materialsOfs m < 2 ^ 31) ∧
    ChainFits materialSize MaterialFits (env.materialsOfs m) m.materialList ∧
    (m.textureList.isEmpty = false → env.texturesOfs m < 2 ^ 31) ∧
    ChainFits env.textureSize env.TextureFits (env.texturesOfs m) m.textureList

/-! ### Item by item -/

/-- The models whose numbers the writer's words can hold. -/
structure FitsWords (env : SaveEnv) (m : TdScanModel) : Prop where
  subsets : ∀ s ∈ m.subsets, s.payloadSize < 2 ^ 28
  textures : ∀ t ∈ m.textureList, t.uiSize.toNat < 2 ^ 28
  links : ∀ ofs ∈ env.links m, ofs < 2 ^ 31
  size : env.fileSize m < 2 ^ 32

end SaveEnv

theorem chainFits_iff {β : Type} {size : β → Nat} {P : Nat → β → Prop} (ofs : Nat) (items : List β) :
    ChainFits size (fun ofs last b => P ofs b ∧ PlaceFits last (ofs + size b)) ofs items ↔
      (∀ x ∈ placed size ofs items, P x.1 x.2) ∧ (∀ x ∈ (placed size ofs items).tail, x.1 < 2 ^ 31) ∧
        (items = [] ∨ ofs + chainSize size items < 2 ^ 32) := by
  induction items generalizing ofs with
  | nil => simp [ChainFits, placed]
  | cons b rest ih =>
    rw [ChainFits, ih, chainSize_cons, placed, List.forall_mem_cons, List.tail_cons, PlaceFits]
    cases rest with
    | nil => simp [placed]
    | cons c rest =>
      simp only [List.isEmpty_cons, forall_const, placed, List.tail_cons, List.forall_mem_cons,
        chainSize_cons, reduceCtorEq, false_or, Nat.add_assoc]
      constructor
      · rintro ⟨⟨head, next, -⟩, all, places, finish⟩
        exact ⟨⟨head, all⟩, ⟨next, places⟩, finish⟩
      · rintro ⟨⟨head, all⟩, ⟨next, places⟩, finish⟩
        exact ⟨⟨head, next, by omega⟩, all, places, finish⟩

namespace SaveEnv
variable {env : SaveEnv}

theorem partsFit_iff (ofs : Nat) (parts : List TdModelPart) :
    ChainFits env.partSize env.PartFits ofs parts ↔
      (∀ x ∈ placed env.partSize ofs parts,
        ChainFits env.subsetSize env.SubsetFits (x.1 + 44) x.2.Subsets ∧ x.1 + 44 < 2 ^ 31) ∧
        (∀ x ∈ (placed env.partSize ofs parts).tail, x.1 < 2 ^ 31) ∧
        (parts = [] ∨ ofs + chainSize env.partSize parts < 2 ^ 32) := by
  have split : env.PartFits = fun ofs last p =>
      (ChainFits env.subsetSize env.SubsetFits (ofs + 44) p.Subsets ∧ ofs + 44 < 2 ^ 31) ∧
        PlaceFits last (ofs + env.partSize p) := by
    funext ofs last p
    rw [PartFits, and_assoc]
  rw [split]
  exact chainFits_iff (P := fun ofs p =>
    ChainFits env.subsetSize env.SubsetFits (ofs + 44) p.Subsets ∧ ofs + 44 < 2 ^ 31) ofs parts

theorem materialsFit_iff (ofs : Nat) (materials : List TdModelMaterial) :
    ChainFits materialSize MaterialFits ofs materials ↔
      (∀ x ∈ (placed materialSize ofs materials).tail, x.1 < 2 ^ 31) ∧
        (materials = [] ∨ ofs + chainSize materialSize materials < 2 ^ 32) := by
  have split : MaterialFits = fun ofs last m => True ∧ PlaceFits last (ofs + materialSize m) := by
    funext ofs last m
    rw [MaterialFits, true_and]
  rw [split, chainFits_iff (P := fun _ _ => True) ofs materials]
  simp only [implies_true, true_and]

theorem subsetsFit_iff (ofs : Nat) (subsets : List TdModelSubset) :
    ChainFits env.subsetSize env.SubsetFits ofs subsets ↔
      (∀ s ∈ subsets, s.payloadSize < 2 ^ 28) ∧
        (∀ x ∈ (placed env.subsetSize ofs subsets).tail, x.1 < 2 ^ 31) ∧
        (subsets = [] ∨ ofs + chainSize env.subsetSize subsets < 2 ^ 32) := by
  rw [← forall_placed env.subsetSize ofs]
  exact chainFits_iff (P := fun _ s => s.payloadSize < payloadLimit) ofs subsets

theorem texturesFit_iff (ofs : Nat) (textures : List TdModelTextureSlot) :
    ChainFits env.textureSize env.TextureFits ofs textures ↔
      (∀ t ∈ textures, t.uiSize.toNat < 2 ^ 28) ∧
        (∀ x ∈ (placed env.textureSize ofs textures).tail, x.1 < 2 ^ 31) ∧
        (textures = [] ∨ ofs + chainSize env.textureSize textures < 2 ^ 32) := by
  rw [← forall_placed env.textureSize ofs]
  exact chainFits_iff (P := fun _ t => t.uiSize.toNat < payloadLimit) ofs textures

theorem forall_placed_fst {β : Type} {size : β → Nat} {ofs : Nat} {items : List β} :
    (∀ o ∈ (placed size ofs items).map Prod.fst, o < 2 ^ 31) ↔
      (items.isEmpty = false → ofs < 2 ^ 31) ∧
        ∀ x ∈ (placed size ofs items).tail, x.1 < 2 ^ 31 := by
  cases items with
  | nil => simp [placed]
  | cons b rest => simp [placed]

theorem forall_links {m : TdScanModel} :
    (∀ ofs ∈ env.links m, ofs < 2 ^ 31) ↔
      (∀ x ∈ (env.placedParts m).tail, x.1 < 2 ^ 31) ∧
        (∀ x ∈ env.placedParts m, x.1 + 44 < 2 ^ 31 ∧
          ∀ y ∈ (env.placedSubsets x.1 x.2).tail, y.1 < 2 ^ 31) ∧
        (∀ ofs ∈ (env.placedMaterials m).map Prod.fst, ofs < 2 ^ 31) ∧
        ∀ ofs ∈ (env.placedTextures m).map Prod.fst, ofs < 2 ^ 31 := by
  rw [links, List.forall_mem_append, List.forall_mem_append, List.forall_mem_append,
    List.forall_mem_flatMap, and_assoc, and_assoc]
  simp only [List.forall_mem_cons, List.forall_mem_map]

/-- The two ways to say that a model fits. -/
theorem chainsFit_iff (m : TdScanModel) : env.ChainsFit m ↔ env.FitsWords m := by
  have sizes : env.fileSize m = env.texturesOfs m + chainSize env.textureSize m.textureList ∧
      env.texturesOfs m = env.materialsOfs m + chainSize materialSize m.materialList ∧
      env.materialsOfs m = 46 + chainSize env.partSize m.Parts := ⟨rfl, rfl, rfl⟩
  have subsets : (∀ s ∈ m.subsets, s.payloadSize < 2 ^ 28) ↔
      ∀ x ∈ env.placedParts m, ∀ s ∈ x.2.Subsets, s.payloadSize < 2 ^ 28 := by
    rw [placedParts, forall_placed _ _ (P := fun p : TdModelPart =>
      ∀ s ∈ p.Subsets, s.payloadSize < 2 ^ 28), TdScanModel.subsets, List.forall_mem_flatMap]
  constructor
  · rintro ⟨parts, materialLink, materials, textureLink, textures⟩
    obtain ⟨within, places, partsEnd⟩ := (partsFit_iff 46 m.Parts).mp parts
    obtain ⟨materialPlaces, materialsEnd⟩ := (materialsFit_iff _ _).mp materials
    obtain ⟨textureSizes, texturePlaces, texturesEnd⟩ := (texturesFit_iff _ _).mp textures
    refine ⟨subsets.mpr fun x part => ((subsetsFit_iff _ _).mp (within x part).1).1, textureSizes,
      forall_links.mpr ⟨places, fun x part => ⟨(within x part).2,
        ((subsetsFit_iff _ _).mp (within x part).1).2.1⟩,
        forall_placed_fst.mpr ⟨materialLink, materialPlaces⟩,
        forall_placed_fst.mpr ⟨textureLink, texturePlaces⟩⟩, ?_⟩
    have materialsStart : env.materialsOfs m < 2 ^ 32 := by
      rcases partsEnd with none | bound
      · rw [sizes.2.2, none, chainSize_nil]; decide
      · exact bound
    have texturesStart : env.texturesOfs m < 2 ^ 32 := by
      rcases materialsEnd with none | bound
      · rw [sizes.2.1, none]; exact materialsStart
      · exact bound
    rcases texturesEnd with none | bound
    · rw [sizes.1, none]; exact texturesStart
    · exact bound
  · rintro ⟨subsetSizes, textureSizes, links, size⟩
    obtain ⟨places, nested, materialPlaces, texturePlaces⟩ := forall_links.mp links
    obtain ⟨materialLink, materialTail⟩ := forall_placed_fst.mp materialPlaces
    obtain ⟨textureLink, textureTail⟩ := forall_placed_fst.mp texturePlaces
    refine ⟨(partsFit_iff 46 m.Parts).mpr ⟨fun x part => ⟨?_, (nested x part).1⟩, places, ?_⟩,
      materialLink, (materialsFit_iff _ _).mpr ⟨materialTail, ?_⟩, textureLink,
      (texturesFit_iff _ _).mpr ⟨textureSizes, textureTail, ?_⟩⟩
    · have inside := (placed_inside part).2
      have unfolded : env.partSize x.2 = 44 + chainSize env.subsetSize x.2.Subsets := rfl
      exact (subsetsFit_iff _ _).mpr ⟨subsets.mp subsetSizes x part, (nested x part).2, by omega⟩
    all_goals omega

theorem fitsWords_triangle : FitsWords literalEnv triangle where
  subsets := by decide
  textures := by decide
  links := by decide +kernel
  size := by decide +kernel

end SaveEnv
end ModelPublish.Scan
