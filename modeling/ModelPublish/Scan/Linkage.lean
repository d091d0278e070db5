import ModelPublish.Scan.Reread

/-!
# Names as links

Subsets name materials and materials name textures. A name of 32 bytes or more fills its field
without a terminator, so what is read back is its first 32 bytes and whatever the chunk holds behind
them, which differs from field to field.
-/

namespace ModelPublish.Scan
open Packed Container ModelPublish.Stream Machine SaveEnv

/-! ### Names before and after -/

/-- A material of the saved model next to its copy. -/
structure MaterialNames where
  key : Name
  saved : Name
  read : Name
  /-- saved and read, slot by slot -/
  textures : List (Name × Name)

structure TextureNames where
  key : Name
  saved : Name
  read : Name

def materialNames (m : TdScanModel) (st : LoadState) : List MaterialNames :=
  m.Materials.entries.zipWith
    (fun e c => ⟨e.1, e.2.sName, c.sName, e.2.textureNames.zip c.textureNames⟩) st.view.materials

def textureNames (m : TdScanModel) (st : LoadState) : List TextureNames :=
  m.Textures.entries.zipWith (fun e c => ⟨e.1, e.2.sName, c.sName⟩) st.view.textures

def subsetNames (m : TdScanModel) (st : LoadState) : List (Name × Name) :=
  (m.subsets.map TdModelSubset.sMatName).zip (st.model.subsets.map TdModelSubset.sMatName)

def partNames (m : TdScanModel) (st : LoadState) : List (Name × Name) :=
  (m.Parts.map TdModelPart.sName).zip (st.model.Parts.map TdModelPart.sName)

/-- The links of a saved model hold between the copies that a load made of its chunks. -/
@[mk_iff]
structure Linked (m : TdScanModel) (st : LoadState) : Prop where
  copies : st.model.Parts.length = m.Parts.length ∧ st.model.subsets.length = m.subsets.length ∧
    st.view.materials.length = m.Materials.size ∧ st.view.textures.length = m.Textures.size
  /-- different materials stay different -/
  apart : ∀ x ∈ materialNames m st, ∀ y ∈ materialNames m st, x.saved ≠ y.saved → x.read ≠ y.read
  /-- a subset names the copy of its material and no other -/
  subsets : ∀ s ∈ subsetNames m st, s.1 ∈ m.Materials.entries.map Prod.fst →
    ∀ x ∈ materialNames m st, x.read = s.2 ↔ x.key = s.1
  /-- a material names the copy of its texture and no other -/
  textures : ∀ x ∈ materialNames m st, ∀ t ∈ x.textures, t.1 ≠ [] →
    t.1 ∈ m.Textures.entries.map Prod.fst → ∀ y ∈ textureNames m st, y.read = t.2 ↔ y.key = t.1
  /-- each name is a beginning of the saved one -/
  bytes : (∀ p ∈ partNames m st, p.2 <+: p.1) ∧ (∀ s ∈ subsetNames m st, s.2 <+: s.1) ∧
    (∀ x ∈ materialNames m st, x.read <+: x.saved ∧ ∀ t ∈ x.textures, t.2 <+: t.1) ∧
    ∀ y ∈ textureNames m st, y.read <+: y.saved

/-- A saved item and its copy are told apart from all others by the key. -/
theorem zip_key_unique {β γ : Type} {map : SortedMap Name β} {copies : List γ}
    (length : copies.length = map.size) {e : Name × β} {c c' : γ} {e' : Name × β}
    (left : (e, c) ∈ map.entries.zip copies) (right : (e', c') ∈ map.entries.zip copies)
    (same : e'.1 = e.1) : c' = c := by
  have keys : ((map.entries.zip copies).map fun x => x.1.1).Nodup := by
    have fst : (map.entries.zip copies).map (fun x => x.1.1) = map.entries.map Prod.fst := by
      conv => rhs; rw [← List.map_fst_zip (Nat.le_of_eq length.symm), List.map_map]
      rfl
    rw [fst]
    exact (List.pairwise_map.mpr map.sorted).imp ne_of_lt
  exact congrArg Prod.snd (List.inj_on_of_nodup_map keys right left same)

/-- In the map of the reloaded model, the name of a subset finds the copy of its material. -/
theorem Linked.find?_subset {m : TdScanModel} {st : LoadState} (h : Linked m st) {bytes : List UInt8}
    {pos : Nat} {pc : LoadPc} {v : View} (stands : Stands bytes pos pc v st) {s : Name × Name}
    (subset : s ∈ subsetNames m st) {e : Name × TdModelMaterial} (entry : e ∈ m.Materials.entries)
    (names : s.1 = e.1) :
    ∃ c, (e, c) ∈ m.Materials.entries.zip st.view.materials ∧
      st.model.Materials.find? s.2 = some c := by
  have length := h.copies.2.2.1
  have known : s.1 ∈ m.Materials.entries.map Prod.fst := names ▸ List.mem_map_of_mem entry
  have pairs {e : Name × TdModelMaterial} {c : TdModelMaterial}
      (pair : (e, c) ∈ m.Materials.entries.zip st.view.materials) : c.sName = s.2 ↔ e.1 = s.1 := by
    refine h.subsets s subset known ⟨e.1, e.2.sName, c.sName, e.2.textureNames.zip c.textureNames⟩ ?_
    rw [materialNames, ← List.map_uncurry_zip_eq_zipWith]
    exact List.mem_map_of_mem (f := Function.uncurry _) pair
  obtain ⟨c, pair⟩ : ∃ c, (e, c) ∈ m.Materials.entries.zip st.view.materials := by
    rw [← List.map_fst_zip (Nat.le_of_eq length.symm)] at entry
    obtain ⟨⟨e', c⟩, pair, rfl⟩ := List.mem_map.mp entry
    exact ⟨c, pair⟩
  have read : c.sName = s.2 := (pairs pair).mpr names.symm
  refine ⟨c, pair, ?_⟩
  rw [stands.materials, View.materialMap, ← stands.view, ← read]
  refine SortedMap.find?_insertMany_of_mem _ (e := (c.sName, c))
    (List.mem_map_of_mem (List.of_mem_zip pair).2) fun x member same => ?_
  obtain ⟨c', present, rfl⟩ := List.mem_map.mp member
  have same : c'.sName = c.sName := same
  rw [← List.map_snd_zip (Nat.le_of_eq length)] at present
  obtain ⟨⟨e', _⟩, pair', rfl⟩ := List.mem_map.mp present
  have key : e'.1 = e.1 := ((pairs pair').mp (same.trans read)).trans names
  rw [zip_key_unique length pair pair' key]

/-! ### Fields -/

/-- A name and the bytes behind its field. -/
structure Slot where
  name : Name
  behind : List UInt8

namespace Slot

/-- What is read past the end of the field. -/
def spill (s : Slot) : List UInt8 := if s.name.length < 32 then [] else cstr s.behind

def text (s : Slot) : Name := s.name.take 32 ++ s.spill

theorem text_short {s : Slot} (short : s.name.length < 32) : s.text = s.name := by
  rw [text, spill, if_pos short, List.append_nil, List.take_of_length_le (Nat.le_of_lt short)]

/-- The name leaves room for its terminator, or what lies behind the field is at once a terminator, or goes on
as the name does. -/
def Clean (s : Slot) : Prop := s.name.length < 32 ∨ cstr s.behind <+: s.name.drop 32

/-- How many bytes come back. -/
def kept (s : Slot) : Nat := if s.name.length < 32 then s.name.length else 32 + (cstr s.behind).length

/-- The names differ in how much of them comes back, or in one of the bytes that do. -/
def Differ (s t : Slot) : Prop := s.kept ≠ t.kept ∨ ∃ i < s.kept, s.name[i]? ≠ t.name[i]?

theorem text_prefix_iff (s : Slot) : s.text <+: s.name ↔ s.Clean := by
  rw [Clean]
  by_cases short : s.name.length < 32
  · rw [text_short short]
    exact iff_of_true (List.prefix_refl _) (Or.inl short)
  · rw [or_iff_right short, text, spill, if_neg short]
    conv => lhs; rhs; rw [← List.take_append_drop 32 s.name]
    exact List.prefix_append_right_inj _

theorem clean_short {s : Slot} (short : s.name.length < 32) : s.Clean := Or.inl short

theorem kept_short {s : Slot} (short : s.name.length < 32) : s.kept = s.name.length := if_pos short

theorem text_clean {s : Slot} (clean : s.Clean) : s.text = s.name.take s.kept ∧ s.kept ≤ s.name.length := by
  by_cases short : s.name.length < 32
  · rw [text_short short, kept_short short, List.take_length]
    exact ⟨rfl, Nat.le_refl _⟩
  · have onward := clean.resolve_left short
    have bound := onward.length_le
    rw [List.length_drop] at bound
    rw [text, spill, kept, if_neg short, if_neg short, List.take_add, ← List.prefix_iff_eq_take.mp onward]
    exact ⟨rfl, by omega⟩

theorem text_ne_iff {s t : Slot} (left : s.Clean) (right : t.Clean) : s.text ≠ t.text ↔ s.Differ t := by
  obtain ⟨read, inside⟩ := text_clean left
  obtain ⟨read', inside'⟩ := text_clean right
  rw [read, read', Differ, ← not_iff_not, not_not, not_or, not_not]
  push Not
  constructor
  · intro same
    have lengths := congrArg List.length same
    rw [List.length_take_of_le inside, List.length_take_of_le inside'] at lengths
    refine ⟨lengths, fun i below => ?_⟩
    have at_i := congrArg (fun l => l[i]?) same
    simpa only [List.getElem?_take_of_lt below, List.getElem?_take_of_lt (lengths ▸ below)] using at_i
  · rintro ⟨lengths, bytes⟩
    rw [← lengths]
    apply List.ext_getElem?
    intro i
    by_cases below : i < s.kept
    · rw [List.getElem?_take_of_lt below, List.getElem?_take_of_lt below, bytes i below]
    · rw [List.getElem?_take_eq_none (Nat.le_of_not_lt below), List.getElem?_take_eq_none (Nat.le_of_not_lt below)]

end Slot

theorem nameAt_slot {α : Type} {c : Codec α} {ofs : Nat} {get : α → List.Vector UInt8 32}
    (field : c.HasField (Codec.bytes 32) ofs get) {h : α} {name : Name} (free : NulFree name)
    (saved : get h = strncpy 32 name) (tail : List UInt8) :
    nameAt c h ofs tail = Slot.text ⟨name, (c.enc h).drop (ofs + 32) ++ tail⟩ := by
  rw [nameAt_field field, saved, Slot.text, Slot.spill]
  split
  · rename_i short
    have short : name.length < 32 := short
    rw [cstr_strncpy_short free short, List.append_nil, List.take_of_length_le (Nat.le_of_lt short)]
  · rename_i long
    have long : ¬ name.length < 32 := long
    exact cstr_strncpy_long free (by omega) _

namespace SaveEnv
variable (env : SaveEnv) (m : TdScanModel)

/-- The name of a part, when `tail` lies in memory behind its header. -/
def partSlot (tail : List UInt8) (x : Nat × Int32 × TdModelPart) : Slot where
  name := x.2.2.sName
  behind :=
    (FilePart.codec.enc (partHeader x.2.2 x.2.1 (UInt32.ofNat (x.1 + 44)).toInt32)).drop 36 ++ tail

/-- The name slots of the chunks that are written, with the keys of what they name. -/
def partSlots (tail : List UInt8) : List Slot :=
  (linked env.partSize 46 m.Parts).map (partSlot tail)

def subsetSlots : List Slot :=
  (linked env.partSize 46 m.Parts).flatMap fun x =>
    (linked env.subsetSize (x.1 + 44) x.2.2.Subsets).map fun y => ⟨y.2.2.sMatName,
      (FileSubset.codec.enc (subsetHeader y.2.2 (env.store y.2.2.payload) y.2.1)).drop 42⟩

end SaveEnv

/-- The fields of a material chunk. -/
structure MaterialSlots where
  key : Name
  slot : Slot
  textures : List Slot

def materialSlot (key : Name) (next : Int32) (m : TdModelMaterial) : MaterialSlots :=
  let bytes := FileMaterial.codec.enc (materialHeader m next)
  { key
    slot := ⟨m.sName, bytes.drop 40⟩
    textures := [⟨m.sDiffuseTextureName, bytes.drop 128⟩, ⟨m.sAlphaTextureName, bytes.drop 160⟩,
      ⟨m.sReflectionTextureName, bytes.drop 192⟩, ⟨m.sSpecularTextureName, bytes.drop 224⟩,
      ⟨m.sNormalTextureName, bytes.drop 256⟩] }

namespace SaveEnv
variable (env : SaveEnv) (m : TdScanModel)

def materialSlots : List MaterialSlots :=
  (linked (fun e => materialSize e.2) (env.materialsOfs m) m.Materials.entries).map fun x =>
    materialSlot x.2.2.1 x.2.1 x.2.2.2

def textureSlots : List (Name × Slot) :=
  (linked (fun e => env.textureSize e.2) (env.texturesOfs m) m.Textures.entries).map fun x =>
    (x.2.2.1, ⟨x.2.2.2.sName,
      (FileTexture.codec.enc (textureHeader x.2.2.2 (env.store x.2.2.2.payload) x.2.1)).drop 35⟩)

/-- No field is followed by bytes that do not belong to its name. -/
structure CleanSlots (env : SaveEnv) (m : TdScanModel) : Prop where
  parts : ∀ tail, ∀ s ∈ env.partSlots m tail, s.Clean
  subsets : ∀ s ∈ env.subsetSlots m, s.Clean
  materials : ∀ x ∈ env.materialSlots m, x.slot.Clean ∧ ∀ t ∈ x.textures, t.Clean
  textures : ∀ y ∈ env.textureSlots m, y.2.Clean

/-- The names that survive: nothing runs on into them, different names of materials differ in what is kept
of them, and a name and a reference to it are kept alike. -/
structure NamesKeep (env : SaveEnv) (m : TdScanModel) : Prop where
  clean : env.CleanSlots m
  apart : ∀ x ∈ env.materialSlots m, ∀ y ∈ env.materialSlots m,
    x.slot.name ≠ y.slot.name → x.slot.Differ y.slot
  subsets : ∀ s ∈ env.subsetSlots m, s.name ∈ m.Materials.entries.map Prod.fst →
    ∀ x ∈ env.materialSlots m, x.slot.Differ s ↔ x.key ≠ s.name
  textures : ∀ x ∈ env.materialSlots m, ∀ t ∈ x.textures, t.name ≠ [] →
    t.name ∈ m.Textures.entries.map Prod.fst →
    ∀ y ∈ env.textureSlots m, y.2.Differ t ↔ y.1 ≠ t.name

end SaveEnv

/-! ### What is read is the text of the slots -/

/-- Names are C strings. -/
structure NulFreeNames (m : TdScanModel) : Prop where
  parts : ∀ p ∈ m.Parts, NulFree p.sName
  subsets : ∀ s ∈ m.subsets, NulFree s.sMatName
  materials : ∀ e ∈ m.Materials.entries, NulFree e.2.sName ∧ ∀ name ∈ e.2.textureNames, NulFree name
  textures : ∀ e ∈ m.Textures.entries, NulFree e.2.sName

theorem linked_values {β : Type} (size : β → Nat) (ofs : Nat) (items : List β) :
    (linked size ofs items).map (fun x => x.2.2) = items := by
  induction items generalizing ofs with
  | nil => rfl
  | cons b rest ih => rw [linked, List.map_cons, ih]

theorem forall_linked {β : Type} {size : β → Nat} {ofs : Nat} {items : List β} {P : β → Prop}
    (h : ∀ b ∈ items, P b) : ∀ x ∈ linked size ofs items, P x.2.2 := by
  intro x member
  apply h x.2.2
  rw [← linked_values size ofs items]
  exact List.mem_map_of_mem member

theorem zipWith_linked {κ β γ δ : Type} (f : κ × β → γ → δ) (size : β → Nat) (copy : Int32 → β → γ)
    (ofs : Nat) (entries : List (κ × β)) :
    entries.zipWith f ((linked size ofs (entries.map Prod.snd)).map fun x => copy x.2.1 x.2.2) =
      (linked (fun e => size e.2) ofs entries).map fun x => f x.2.2 (copy x.2.1 x.2.2.2) := by
  induction entries generalizing ofs with
  | nil => rfl
  | cons e rest ih => simp only [List.map_cons, linked, List.isEmpty_map, List.zipWith_cons_cons, ih]

section Copies
variable {env : SaveEnv}

theorem subsetCopy_name {s : TdModelSubset} (free : NulFree s.sMatName) (next : Int32) :
    (env.subsetCopy next s).sMatName = Slot.text ⟨s.sMatName,
      (FileSubset.codec.enc (subsetHeader s (env.store s.payload) next)).drop 42⟩ := by
  have name := nameAt_slot FileSubset.matName_field free
    (h := subsetHeader s (env.store s.payload) next) rfl []
  rwa [List.append_nil] at name

theorem textureCopy_name {t : TdModelTextureSlot} (free : NulFree t.sName) (next : Int32) :
    (env.textureCopy next t).sName = Slot.text ⟨t.sName,
      (FileTexture.codec.enc (textureHeader t (env.store t.payload) next)).drop 35⟩ := by
  have name := nameAt_slot FileTexture.name_field free
    (h := textureHeader t (env.store t.payload) next) rfl []
  rwa [List.append_nil] at name

theorem materialCopy_names {m : TdModelMaterial} (key : Name) (free : NulFree m.sName)
    (textures : ∀ name ∈ m.textureNames, NulFree name) (next : Int32) :
    (materialCopy next m).sName = (materialSlot key next m).slot.text ∧
      m.textureNames.zip (materialCopy next m).textureNames =
        (materialSlot key next m).textures.map fun t => (t.name, t.text) := by
  simp only [TdModelMaterial.textureNames, List.forall_mem_cons] at textures
  obtain ⟨diffuse, alpha, reflection, specular, normal, -⟩ := textures
  have name := nameAt_slot FileMaterial.name_field free (h := materialHeader m next) rfl []
  have diffuse := nameAt_slot FileMaterial.diffuse_field diffuse (h := materialHeader m next) rfl []
  have alpha := nameAt_slot FileMaterial.alpha_field alpha (h := materialHeader m next) rfl []
  have reflection := nameAt_slot FileMaterial.reflection_field reflection
    (h := materialHeader m next) rfl []
  have specular := nameAt_slot FileMaterial.specular_field specular (h := materialHeader m next) rfl []
  have normal := nameAt_slot FileMaterial.normal_field normal (h := materialHeader m next) rfl []
  simp only [List.append_nil, Nat.reduceAdd] at name diffuse alpha reflection specular normal
  simp only [TdModelMaterial.textureNames, materialCopy, materialOf, materialSlot, name, diffuse, alpha,
    reflection, specular, normal, List.zip_cons_cons, List.zip_nil_left, List.map_cons, List.map_nil,
    and_self]

end Copies

section Reads
variable {env : SaveEnv} {m : TdScanModel} (free : NulFreeNames m) {tails : List UInt8 → Prop}
  {parts : List TdModelPart}

theorem copied_subsets (copied : env.PartsCopied m tails parts) :
    parts.flatMap TdModelPart.Subsets =
      (linked env.partSize 46 m.Parts).flatMap fun x => env.subsetCopies x.1 x.2.2 := by
  unfold SaveEnv.PartsCopied at copied
  generalize linked env.partSize 46 m.Parts = l at copied
  induction copied with
  | nil => rfl
  | cons head _ ih =>
    obtain ⟨tail, -, rfl⟩ := head
    rw [List.flatMap_cons, List.flatMap_cons, ih]
    rfl

include free

theorem subset_texts (copied : env.PartsCopied m tails parts) :
    (m.subsets.map TdModelSubset.sMatName).zip
        ((parts.flatMap TdModelPart.Subsets).map TdModelSubset.sMatName) =
      (env.subsetSlots m).map fun s => (s.name, s.text) := by
  have saved : m.subsets.map TdModelSubset.sMatName = (env.subsetSlots m).map Slot.name := by
    have parts := linked_values env.partSize 46 m.Parts
    rw [TdScanModel.subsets, SaveEnv.subsetSlots]
    conv => lhs; rw [← parts]
    rw [List.map_flatMap, List.map_flatMap, List.flatMap_map]
    congr 1
    funext x
    conv => lhs; rw [← linked_values env.subsetSize (x.1 + 44) x.2.2.Subsets]
    rw [List.map_map, List.map_map]
    rfl
  have read : (parts.flatMap TdModelPart.Subsets).map TdModelSubset.sMatName =
      (env.subsetSlots m).map Slot.text := by
    rw [copied_subsets copied, SaveEnv.subsetSlots, List.map_flatMap, List.map_flatMap]
    apply List.flatMap_congr
    intro x member
    rw [SaveEnv.subsetCopies, List.map_map, List.map_map]
    refine List.map_congr_left fun y inside => subsetCopy_name ?_ y.2.1
    have part := forall_linked (P := fun p : TdModelPart => ∀ s ∈ p.Subsets, NulFree s.sMatName)
      (List.forall_mem_flatMap.mp free.subsets) x member
    exact forall_linked (P := fun s : TdModelSubset => NulFree s.sMatName) part y inside
  rw [saved, read, List.zip_map']

theorem material_texts :
    m.Materials.entries.zipWith (fun e c => (⟨e.1, e.2.sName, c.sName,
        e.2.textureNames.zip c.textureNames⟩ : MaterialNames)) (env.materialCopies m) =
      (env.materialSlots m).map fun x => ⟨x.key, x.slot.name, x.slot.text,
        x.textures.map fun t => (t.name, t.text)⟩ := by
  rw [SaveEnv.materialCopies, TdScanModel.materialList, zipWith_linked, SaveEnv.materialSlots,
    List.map_map]
  apply List.map_congr_left
  intro x member
  obtain ⟨name, textures⟩ := forall_linked (P := fun e : Name × TdModelMaterial =>
    NulFree e.2.sName ∧ ∀ name ∈ e.2.textureNames, NulFree name) free.materials x member
  obtain ⟨read, slots⟩ := materialCopy_names x.2.2.1 name textures x.2.1
  simp only [Function.comp_apply, read, slots]
  rfl

theorem texture_texts :
    m.Textures.entries.zipWith (fun e c => (⟨e.1, e.2.sName, c.sName⟩ : TextureNames))
        (env.textureCopies m) =
      (env.textureSlots m).map fun y => ⟨y.1, y.2.name, y.2.text⟩ := by
  rw [SaveEnv.textureCopies, TdScanModel.textureList, zipWith_linked, SaveEnv.textureSlots,
    List.map_map]
  apply List.map_congr_left
  intro x member
  have name := forall_linked (P := fun e : Name × TdModelTextureSlot => NulFree e.2.sName)
    free.textures x member
  simp only [Function.comp_apply, textureCopy_name name]

theorem part_texts (copied : env.PartsCopied m tails parts) :
    List.Forall₂ (fun x p => ∃ tail, tails tail ∧ p = (x.2.2.sName, (partSlot tail x).text))
      (linked env.partSize 46 m.Parts)
      ((m.Parts.map TdModelPart.sName).zip (parts.map TdModelPart.sName)) := by
  have names : ∀ x ∈ linked env.partSize 46 m.Parts, NulFree x.2.2.sName :=
    forall_linked (P := fun p : TdModelPart => NulFree p.sName) free.parts
  unfold SaveEnv.PartsCopied at copied
  conv => arg 3; rw [← linked_values env.partSize 46 m.Parts]
  generalize linked env.partSize 46 m.Parts = l at copied names
  induction copied with
  | nil => exact .nil
  | cons head _ ih =>
    obtain ⟨first, rest⟩ := List.forall_mem_cons.mp names
    obtain ⟨tail, possible, rfl⟩ := head
    refine .cons ⟨tail, possible, ?_⟩ (ih rest)
    rw [partSlot, ← nameAt_slot FilePart.name_field first rfl]
    rfl

theorem part_names_kept (copied : env.PartsCopied m tails parts)
    (kept : ∀ tail, ∀ s ∈ env.partSlots m tail, s.Clean) :
    ∀ p ∈ (m.Parts.map TdModelPart.sName).zip (parts.map TdModelPart.sName), p.2 <+: p.1 := by
  have texts := part_texts free copied
  simp only [SaveEnv.partSlots, List.forall_mem_map] at kept
  generalize (m.Parts.map TdModelPart.sName).zip (parts.map TdModelPart.sName) = names at texts
  generalize linked env.partSize 46 m.Parts = l at texts kept
  induction texts with
  | nil => simp
  | cons head _ ih =>
    obtain ⟨tail, -, rfl⟩ := head
    refine List.forall_mem_cons.mpr ⟨?_, ih fun tail x member => kept tail x (List.mem_cons_of_mem _ member)⟩
    exact (Slot.text_prefix_iff (partSlot tail _)).mpr (kept tail _ List.mem_cons_self)

theorem part_slots_clean {tail : List UInt8} (copied : env.PartsCopied m (fun bytes => bytes = tail) parts)
    (kept : ∀ p ∈ (m.Parts.map TdModelPart.sName).zip (parts.map TdModelPart.sName), p.2 <+: p.1) :
    ∀ s ∈ env.partSlots m tail, s.Clean := by
  have texts := part_texts free copied
  simp only [SaveEnv.partSlots, List.forall_mem_map]
  generalize (m.Parts.map TdModelPart.sName).zip (parts.map TdModelPart.sName) = names at texts kept
  generalize linked env.partSize 46 m.Parts = l at texts
  induction texts with
  | nil => simp
  | cons head _ ih =>
    obtain ⟨bytes, rfl, rfl⟩ := head
    obtain ⟨first, rest⟩ := List.forall_mem_cons.mp kept
    exact List.forall_mem_cons.mpr ⟨(Slot.text_prefix_iff (partSlot bytes _)).mp first, ih rest⟩

end Reads

theorem length_linked {β : Type} (size : β → Nat) (ofs : Nat) (items : List β) :
    (linked size ofs items).length = items.length := by
  conv => rhs; rw [← linked_values size ofs items, List.length_map]

theorem copies_length {env : SaveEnv} {m : TdScanModel} {tails : List UInt8 → Prop}
    {parts : List TdModelPart} (copied : env.PartsCopied m tails parts) :
    parts.length = m.Parts.length ∧ (parts.flatMap TdModelPart.Subsets).length = m.subsets.length ∧
      (env.materialCopies m).length = m.Materials.size ∧
      (env.textureCopies m).length = m.Textures.size := by
  refine ⟨?_, ?_, ?_, ?_⟩
  · rw [← copied.length_eq, length_linked]
  · rw [copied_subsets copied, TdScanModel.subsets]
    conv => rhs; rw [← linked_values env.partSize 46 m.Parts]
    simp only [List.length_flatMap, List.map_map, SaveEnv.subsetCopies, List.length_map, length_linked]
    rfl
  · rw [SaveEnv.materialCopies, List.length_map, length_linked, TdScanModel.materialList,
      List.length_map]
    rfl
  · rw [SaveEnv.textureCopies, List.length_map, length_linked, TdScanModel.textureList,
      List.length_map]
    rfl

/-- Apart from the part names, whether the links hold is decided by the slots. -/
theorem linked_slots_iff {env : SaveEnv} {m : TdScanModel} (free : NulFreeNames m)
    {tails : List UInt8 → Prop} {parts : List TdModelPart} (copied : env.PartsCopied m tails parts)
    {bytes : List UInt8} {pos : Nat} {pc : LoadPc} {libs libs' : Int32} {st : LoadState}
    (stands : Stands bytes pos pc ⟨parts, env.materialCopies m, env.textureCopies m, libs, libs'⟩ st) :
    Linked m st ↔ ((∀ p ∈ (m.Parts.map TdModelPart.sName).zip (parts.map TdModelPart.sName),
        p.2 <+: p.1) ∧ (∀ s ∈ env.subsetSlots m, s.Clean) ∧
        (∀ x ∈ env.materialSlots m, x.slot.Clean ∧ ∀ t ∈ x.textures, t.Clean) ∧
        ∀ y ∈ env.textureSlots m, y.2.Clean) ∧
      (∀ x ∈ env.materialSlots m, ∀ y ∈ env.materialSlots m,
        x.slot.name ≠ y.slot.name → x.slot.Differ y.slot) ∧
      (∀ s ∈ env.subsetSlots m, s.name ∈ m.Materials.entries.map Prod.fst →
        ∀ x ∈ env.materialSlots m, x.slot.Differ s ↔ x.key ≠ s.name) ∧
      ∀ x ∈ env.materialSlots m, ∀ t ∈ x.textures, t.name ≠ [] →
        t.name ∈ m.Textures.entries.map Prod.fst →
        ∀ y ∈ env.textureSlots m, y.2.Differ t ↔ y.1 ≠ t.name := by
  have model : st.model.Parts = parts := congrArg View.parts stands.view
  have materials : materialNames m st = _ :=
    (congrArg (List.zipWith _ m.Materials.entries) (congrArg View.materials stands.view)).trans
      (material_texts free)
  have textures : textureNames m st = _ :=
    (congrArg (List.zipWith _ m.Textures.entries) (congrArg View.textures stands.view)).trans
      (texture_texts free)
  have subsets : subsetNames m st = (env.subsetSlots m).map fun s => (s.name, s.text) := by
    rw [← subset_texts free copied, ← model]
    rfl
  have partPairs : partNames m st =
      (m.Parts.map TdModelPart.sName).zip (parts.map TdModelPart.sName) := by
    rw [← model]
    rfl
  have counts : st.model.Parts.length = m.Parts.length ∧ st.model.subsets.length = m.subsets.length ∧
      st.view.materials.length = m.Materials.size ∧ st.view.textures.length = m.Textures.size := by
    have lengths := copies_length copied
    rw [← model] at lengths
    rw [stands.view]
    exact lengths
  rw [linked_iff, materials, textures, subsets, partPairs]
  simp only [List.forall_mem_map, Slot.text_prefix_iff, counts, and_self, true_and]
  have regroup {apart subsets textures bytes : Prop} :
      apart ∧ subsets ∧ textures ∧ bytes ↔ bytes ∧ apart ∧ subsets ∧ textures := by
    rw [← and_assoc, ← and_assoc, and_comm, and_assoc]
  rw [regroup]
  refine and_congr_right fun clean => ?_
  obtain ⟨-, cleanSubsets, cleanMaterials, cleanTextures⟩ := clean
  refine and_congr ?_ (and_congr ?_ ?_)
  · refine forall₂_congr fun x xs => forall₂_congr fun y ys => imp_congr_right fun _ => ?_
    exact Slot.text_ne_iff (cleanMaterials x xs).1 (cleanMaterials y ys).1
  · refine forall₂_congr fun s ss => imp_congr_right fun _ => forall₂_congr fun x xs => ?_
    rw [← Slot.text_ne_iff (cleanMaterials x xs).1 (cleanSubsets s ss)]
    exact not_iff_not.symm
  · refine forall₂_congr fun x xs => forall₂_congr fun t ts => imp_congr_right fun _ => imp_congr_right fun _ =>
      forall₂_congr fun y ys => ?_
    rw [← Slot.text_ne_iff (cleanTextures y ys) ((cleanMaterials x xs).2 t ts)]
    exact not_iff_not.symm

/-- A memory in which the same bytes lie behind every header. -/
def Uninit.withTail (tail : List UInt8) : Uninit := { (default : Uninit) with tail }

theorem reload_over {env : SaveEnv} (hc : Lz4.CompressHC env.compress) {m : TdScanModel}
    (fits : FitsFormat env m) (chains : m.NoEmptyChain) (target : Target) (src : Source)
    (same : src.bytes = env.image m) (tail : List UInt8) :
    ∃ memory parts, env.PartsCopied m (fun bytes => bytes = tail) parts ∧
      Stands src.bytes src.bytes.length (.returned true) ⟨parts, env.materialCopies m, env.textureCopies m,
        (env.fileHeader m).iMaterialLibOfs, (env.fileHeader m).iTexLibOfs⟩ (load target src memory) := by
  have run := image_run (fun _ : Unit => Uninit.withTail tail) target hc fits chains src same
  obtain ⟨n, parts, copied, stands⟩ := run.halts fun _ => ()
  rw [run_map (fun _ : Unit => Uninit.withTail tail)] at stands
  exact ⟨_, parts, copied.imp fun _ _ ⟨bytes, ⟨_, here⟩, copy⟩ => ⟨bytes, here.symm, copy⟩, stands⟩

/-- After a save and a load the names still link what they linked, whatever the uninitialised memory
holds, exactly for the models whose names survive. -/
theorem linked_reload_iff {env : SaveEnv} (hc : Lz4.CompressHC env.compress) {m : TdScanModel}
    (fits : FitsFormat env m) (chains : m.NoEmptyChain) (free : NulFreeNames m) (target : Target) :
    (∃ st, env.save3DScanModel true m = some (true, st) ∧
        ∀ src : Source, src.bytes = st.file.bytes → ∀ memory, (load target src memory).Accepted →
          Linked m (load target src memory)) ↔
      env.NamesKeep m := by
  obtain ⟨st, written, image, -⟩ := writeModel_image hc fits
  have saved : env.save3DScanModel true m = some (true, st) := by
    rw [save3DScanModel, if_pos rfl, written]
    rfl
  constructor
  · rintro ⟨st', saved', linked⟩
    obtain rfl : st = st' := by
      rw [saved] at saved'
      exact (Prod.mk.inj (Option.some.inj saved')).2
    have reread (tail : List UInt8) := reload_over hc fits chains target (.file st.file.bytes)
      image tail
    have parts (tail : List UInt8) : ∀ s ∈ env.partSlots m tail, s.Clean := by
      obtain ⟨memory, parts, copied, stands⟩ := reread tail
      exact part_slots_clean free copied
        ((linked_slots_iff free copied stands).mp (linked _ rfl memory stands.pc)).1.1
    obtain ⟨memory, _, copied, stands⟩ := reread []
    obtain ⟨⟨-, cleanSubsets, cleanMaterials, cleanTextures⟩, apart, subsets, textures⟩ :=
      (linked_slots_iff free copied stands).mp (linked _ rfl memory stands.pc)
    exact ⟨⟨parts, cleanSubsets, cleanMaterials, cleanTextures⟩, apart, subsets, textures⟩
  · rintro ⟨⟨parts, cleanSubsets, cleanMaterials, cleanTextures⟩, apart, subsets, textures⟩
    refine ⟨st, saved, fun src same memory accepted => ?_⟩
    obtain ⟨-, ends⟩ := image_outcome id target hc fits chains src (same.trans image)
    obtain ⟨copies, copied, stands⟩ := ends memory (Or.inl ⟨true, accepted⟩)
    exact (linked_slots_iff free copied stands).mpr
      ⟨⟨part_names_kept free copied parts, cleanSubsets, cleanMaterials, cleanTextures⟩, apart, subsets, textures⟩

/-! ### Short names -/

/-- Models whose names leave room for a terminator and whose keys are the names of their values. -/
structure ShortNames (m : TdScanModel) : Prop where
  parts : ∀ p ∈ m.Parts, p.sName.length < 32
  subsets : ∀ p ∈ m.Parts, ∀ s ∈ p.Subsets, s.sMatName.length < 32
  materials : ∀ e ∈ m.Materials.entries, e.1 = e.2.sName ∧ e.2.sName.length < 32 ∧
    ∀ name ∈ e.2.textureNames, name.length < 32
  textures : ∀ e ∈ m.Textures.entries, e.1 = e.2.sName ∧ e.2.sName.length < 32

/-- Short names are kept whole. -/
theorem Slot.differ_short {s t : Slot} (left : s.name.length < 32) (right : t.name.length < 32) :
    s.Differ t ↔ s.name ≠ t.name := by
  rw [← Slot.text_ne_iff (Slot.clean_short left) (Slot.clean_short right), Slot.text_short left,
    Slot.text_short right]

theorem namesKeep_of_short (env : SaveEnv) {m : TdScanModel} (h : ShortNames m) :
    env.NamesKeep m := by
  have parts : ∀ tail, ∀ s ∈ env.partSlots m tail, s.name.length < 32 := by
    intro tail
    simp only [SaveEnv.partSlots, List.forall_mem_map]
    exact forall_linked (P := fun p : TdModelPart => p.sName.length < 32) h.parts
  have subsets : ∀ s ∈ env.subsetSlots m, s.name.length < 32 := by
    simp only [SaveEnv.subsetSlots, List.forall_mem_flatMap, List.forall_mem_map]
    intro x member
    exact forall_linked (P := fun s : TdModelSubset => s.sMatName.length < 32)
      (forall_linked (P := fun p : TdModelPart => ∀ s ∈ p.Subsets, s.sMatName.length < 32) h.subsets
        x member)
  have materials : ∀ x ∈ env.materialSlots m, x.key = x.slot.name ∧ x.slot.name.length < 32 ∧
      ∀ t ∈ x.textures, t.name.length < 32 := by
    simp only [SaveEnv.materialSlots, List.forall_mem_map]
    intro x member
    obtain ⟨key, name, textures⟩ := forall_linked (P := fun e : Name × TdModelMaterial =>
      e.1 = e.2.sName ∧ e.2.sName.length < 32 ∧ ∀ name ∈ e.2.textureNames, name.length < 32)
      h.materials x member
    refine ⟨key, name, ?_⟩
    simpa [materialSlot, TdModelMaterial.textureNames] using textures
  have textures : ∀ y ∈ env.textureSlots m, y.1 = y.2.name ∧ y.2.name.length < 32 := by
    simp only [SaveEnv.textureSlots, List.forall_mem_map]
    exact forall_linked (P := fun e : Name × TdModelTextureSlot =>
      e.1 = e.2.sName ∧ e.2.sName.length < 32) h.textures
  refine ⟨⟨fun tail s member => Slot.clean_short (parts tail s member),
    fun s member => Slot.clean_short (subsets s member),
    fun x member => ⟨Slot.clean_short (materials x member).2.1,
      fun t inside => Slot.clean_short ((materials x member).2.2 t inside)⟩,
    fun y member => Slot.clean_short (textures y member).2⟩, ?_, ?_, ?_⟩
  · intro x xs y ys different
    exact (Slot.differ_short (materials x xs).2.1 (materials y ys).2.1).mpr different
  · intro s member _ x xs
    rw [Slot.differ_short (materials x xs).2.1 (subsets s member), (materials x xs).1]
  · intro x xs t inside _ _ y ys
    rw [Slot.differ_short (textures y ys).2 ((materials x xs).2.2 t inside), (textures y ys).1]

theorem linked_reload_triangle :
    ∃ st, literalEnv.save3DScanModel true triangle = some (true, st) ∧
      ∀ src : Source, src.bytes = st.file.bytes → ∀ memory, (load .x64 src memory).Accepted →
        Linked triangle (load .x64 src memory) :=
  (linked_reload_iff Lz4.compressHC_lastLiterals fitsFormat_triangle (by decide)
    ⟨by decide, by decide, by decide, by decide⟩ .x64).mpr
    (namesKeep_of_short literalEnv ⟨by decide, by decide, by decide, by decide⟩)

def longName : Name := List.replicate 32 109

def longNamed : TdScanModel where
  Parts := triangle.Parts.map fun p =>
    { p with Subsets := p.Subsets.map fun s => { s with sMatName := longName } }
  Materials := ⟨[(longName, { redMaterial with sName := longName })], List.pairwise_singleton _ _⟩
  Textures := triangle.Textures
  ptMin := triangle.ptMin
  ptMax := triangle.ptMax

/-- The vertex count behind the field is read as a part of the name. -/
theorem linked_longNamed :
    ∃ st, literalEnv.save3DScanModel true longNamed = some (true, st) ∧
      ∃ memory, (load .x64 (.file st.file.bytes) memory).Accepted ∧
        ¬ Linked longNamed (load .x64 (.file st.file.bytes) memory) := by
  have fits : FitsFormat literalEnv longNamed := ⟨by decide, by decide, by decide +kernel⟩
  obtain ⟨st, written, image, -⟩ := writeModel_image Lz4.compressHC_lastLiterals fits
  obtain ⟨memory, parts, copied, stands⟩ := reload_over Lz4.compressHC_lastLiterals fits (by decide)
    .x64 (.file st.file.bytes) image []
  refine ⟨st, by rw [save3DScanModel, if_pos rfl, written]; rfl, memory, stands.pc, fun linked => ?_⟩
  have spilled : ∃ s ∈ literalEnv.subsetSlots longNamed, s.name = longName ∧ cstr s.behind = [3] := by
    decide +kernel
  obtain ⟨s, member, name, read⟩ := spilled
  have slots := (linked_slots_iff ⟨by decide, by decide, by decide, by decide⟩ copied stands).mp linked
  have clean := slots.1.2.1 s member
  rw [Slot.Clean, name, read] at clean
  exact absurd clean (by decide)

end ModelPublish.Scan
