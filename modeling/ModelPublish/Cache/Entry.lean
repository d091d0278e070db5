import ModelPublish.Packed.Codec
import ModelPublish.Packed.Memory

/-!
# Records of the cache index

`CACHE_ENTRY` as the table and `cache.dat` hold it. A `wchar_t` is a word of 16 bits, and a string
lies at the front of an array of `MAX_PATH` of them.
-/

namespace ModelPublish.Cache
open Packed

def maxPath : Nat := 260

abbrev WideArray : Type := List.Vector UInt16 maxPath

/-- A string that fits an array together with its terminator. -/
structure Wide where
  chars : List UInt16
  fits : chars.length < maxPath
  free : 0 ∉ chars
  deriving DecidableEq

theorem Wide.ext {s t : Wide} (h : s.chars = t.chars) : s = t := by
  cases s
  cases t
  cases h
  rfl

/-- What a `wchar_t*` to the start of an array reads as. -/
def wcs (v : WideArray) : List UInt16 := v.toList.takeWhile (· ≠ 0)

/-- The array after `wcscpy`. What lies behind the terminator stays. -/
def wcscpy (dst : WideArray) (s : Wide) : WideArray :=
  ⟨s.chars ++ 0 :: dst.toList.drop (s.chars.length + 1), by
    have room := s.fits
    have length := dst.toList_length
    simp only [List.length_append, List.length_cons, List.length_drop]
    omega⟩

theorem takeWhile_terminated {chars rest : List UInt16} (free : 0 ∉ chars) :
    (chars ++ 0 :: rest).takeWhile (· ≠ 0) = chars := by
  have front : ∀ c ∈ chars, (decide (c ≠ 0)) = true := by
    intro c member
    have nonzero : c ≠ 0 := fun zero => free (zero ▸ member)
    simpa using nonzero
  rw [List.takeWhile_append_of_pos front]
  simp

@[simp] theorem wcs_wcscpy (dst : WideArray) (s : Wide) : wcs (wcscpy dst s) = s.chars :=
  takeWhile_terminated s.free

theorem wcscpy_self {dst : WideArray} {s : Wide} (same : wcs dst = s.chars) : wcscpy dst s = dst := by
  apply Subtype.ext
  show s.chars ++ 0 :: dst.toList.drop (s.chars.length + 1) = dst.toList
  have room := s.fits
  have length := dst.toList_length
  have parts := List.takeWhile_append_dropWhile (p := fun c : UInt16 => decide (c ≠ 0)) (l := dst.toList)
  have front : dst.toList.takeWhile (· ≠ 0) = s.chars := same
  cases behind : dst.toList.dropWhile (fun c : UInt16 => decide (c ≠ 0)) with
  | nil =>
    rw [behind, List.append_nil, front] at parts
    rw [← parts] at length
    omega
  | cons c rest =>
    have stop := List.head?_dropWhile_not (fun c : UInt16 => decide (c ≠ 0)) dst.toList
    rw [behind] at stop
    have zero : c = 0 := by simpa using stop
    rw [behind, front, zero] at parts
    rw [← parts]
    simp

structure CacheEntry where
  szSibscriptionId : WideArray
  DateTime : List.Vector UInt16 8
  dwHash : UInt32
  szModelFile : WideArray
  szAdFile : WideArray
  szThumbFile : WideArray
  szAdUrl : WideArray
  deriving DecidableEq

namespace CacheEntry
open Codec

def codec : Codec CacheEntry :=
  ((u16.array maxPath).seq <| (u16.array 8).seq <| u32.seq <| (u16.array maxPath).seq <|
    (u16.array maxPath).seq <| (u16.array maxPath).seq (u16.array maxPath)).equiv
  { toFun e := (e.szSibscriptionId, e.DateTime, e.dwHash, e.szModelFile, e.szAdFile, e.szThumbFile,
      e.szAdUrl)
    invFun := fun (id, time, hash, model, ad, thumb, url) => ⟨id, time, hash, model, ad, thumb, url⟩
    left_inv _ := rfl
    right_inv _ := rfl }

@[simp] theorem size : codec.size = 2620 := rfl

def zero : CacheEntry :=
  ⟨List.Vector.replicate _ 0, List.Vector.replicate _ 0, 0, List.Vector.replicate _ 0,
    List.Vector.replicate _ 0, List.Vector.replicate _ 0, List.Vector.replicate _ 0⟩

end CacheEntry

def records (content : List UInt8) : List CacheEntry :=
  CacheEntry.codec.decMany (content.length / CacheEntry.codec.size) content

theorem records_encMany (table : List CacheEntry) : records (CacheEntry.codec.encMany table) = table := by
  have all := CacheEntry.codec.decMany_encMany table []
  rw [List.append_nil] at all
  rw [records, Codec.length_encMany, Nat.mul_div_cancel _ (by rw [CacheEntry.size]; decide)]
  exact all

end ModelPublish.Cache
