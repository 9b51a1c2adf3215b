import FlowDisasm.Proofs.Bytes.Sums
import FlowDisasm.Proofs.Module.Rebasing

/-!
# Relocating more than once

Where any two patched words are the same or have no byte in common, relocating to one base and then to another one
is relocating to their sum: base zero does nothing, and the negative of a base takes the base back. Words that
overlap in part are left out, because the carry out of one of them changes the other.
-/
namespace FlowDisasm.Module.FixupTable

open Bytes (SameOrApart addAll)

/-- Bases add up. How a relocation ends is a matter of the table and the size of the image alone. If it succeeds,
relocating to base zero changes nothing; and if any two patched words are the same or lie apart, relocating twice
gives what relocating to the sum gives, with the same numbers each time, and relocating to the negative of a base
restores the image. -/
theorem relocate_sums (table : FixupTable) :
    (∀ (image changed : Array UInt8) (base other : UInt32), image.size = changed.size →
      (table.relocate image base).value.1 = (table.relocate changed other).value.1) ∧
    ∀ (image : Array UInt8) (base : UInt32) (stats : RelocationStats),
      (table.relocate image base).value.1 = .ok stats →
      (table.relocate image 0).value = (.ok stats, image) ∧
      (table.sites.Pairwise SameOrApart →
        (∀ first second : UInt32,
          let once := (table.relocate image first).value
          let twice := (table.relocate once.2 second).value
          once.1 = .ok stats ∧ twice.1 = .ok stats ∧
            twice = (table.relocate image (first + second)).value) ∧
        ∀ amount : UInt32, (table.relocate (table.relocate image amount).value.2 (-amount)).value =
          (.ok stats, image)) := by
  refine ⟨fun image changed base other hsize => table.relocate_result_congr hsize base other,
    fun image base stats hok => ?_⟩
  have hrelocatable := relocatable_of_ok hok
  obtain rfl : table.stats = stats := by
    rw [relocate_of_relocatable hrelocatable] at hok
    exact Except.ok.inj hok
  have honce (amount : UInt32) :
      (table.relocate image amount).value = (.ok table.stats, addAll amount image table.sites) :=
    relocate_of_relocatable hrelocatable
  have hagain (first second : UInt32) :
      (table.relocate (addAll first image table.sites) second).value =
        (.ok table.stats, addAll second (addAll first image table.sites) table.sites) :=
    relocate_of_relocatable (by rwa [Bytes.size_addAll])
  refine ⟨by rw [honce, Bytes.addAll_zero], fun hapart => ⟨fun first second => ?_, fun amount => ?_⟩⟩
  · simp only [honce, hagain, Bytes.addAll_addAll hapart, and_self]
  · rw [honce, hagain, Bytes.addAll_addAll hapart, UInt32.add_right_neg, Bytes.addAll_zero]

/-- A page of two words, with one reference at the first and two at the second. -/
def repeatedReferences : FixupTable where
  pageOffsets := #[0, 12]
  records := #[0x27, 0x00, 3, 1, 0, 0, 0x00, 0x00, 0x04, 0x00, 0x04, 0x00]
  pageSize := 8

def twoWords : Array UInt8 := #[0x10, 0, 0, 0, 0xFF, 0xFF, 0xFF, 0xFF]

theorem relocate_sums_repeated :
    let once := (repeatedReferences.relocate twoWords 0x1000).value
    repeatedReferences.sites = [0, 4, 4] ∧ repeatedReferences.sites.Pairwise SameOrApart ∧
      once.1 = .ok { pages := 1, records := 1, patched := 3 } ∧
      once.2 = #[0x10, 0x10, 0, 0, 0xFF, 0x1F, 0, 0] ∧
      (repeatedReferences.relocate once.2 0x80000000).value =
        (repeatedReferences.relocate twoWords 0x80001000).value ∧
      (repeatedReferences.relocate once.2 (-0x1000)).value.2 = twoWords := by
  intro once
  have hsites : repeatedReferences.sites = [0, 4, 4] := by decide +kernel
  have hapart : repeatedReferences.sites.Pairwise SameOrApart := by
    rw [hsites]
    decide
  have honce : once.1 = .ok { pages := 1, records := 1, patched := 3 } := by decide +kernel
  obtain ⟨-, hsums⟩ := (relocate_sums repeatedReferences).2 twoWords 0x1000 _ honce
  obtain ⟨hsum, hback⟩ := hsums hapart
  have hbase : (0x1000 + 0x80000000 : UInt32) = 0x80001000 := by decide
  obtain ⟨-, -, htwice⟩ := hsum 0x1000 0x80000000
  rw [hbase] at htwice
  refine ⟨hsites, hapart, honce, by decide +kernel, htwice, ?_⟩
  rw [hback]

end FlowDisasm.Module.FixupTable
