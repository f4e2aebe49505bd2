import ChipEight.Memory

/-!
# Images in memory

Loading splices an image into memory at `0x200` and unloading cuts everything off from there. Both
are read byte by byte in the definitions; here they are equations about memory as one list.
-/
namespace ChipEight.Memory

variable (memory : Memory)

theorem length_toList : memory.toList.length = 4096 := Vector.length_toList

theorem getElem_toList {address : Nat} (bound : address < 4096)
    (inside : address < memory.toList.length) :
    memory.toList[address] = memory.get ⟨address, bound⟩ := by
  simp only [toList, Vector.getElem_toList, get]

theorem get_initial (address : Address) :
    initial.get address =
      if font : Font.Occupies address.val then Font.byteAt address.val font else 0 := by
  simp [initial, get]

theorem length_take_toList : (memory.toList.take 0x200).length = 0x200 := by
  rw [List.length_take, length_toList]
  omega

theorem toList_overlay {image : List UInt8} (fits : image.length ≤ 3584) :
    (memory.overlay imageStart image.toArray).toList =
      memory.toList.take 0x200 ++ image ++ memory.toList.drop (0x200 + image.length) := by
  have start := memory.length_take_toList
  rw [List.append_assoc]
  refine List.ext_getElem ?_ ?_
  · simp only [List.length_append, start, List.length_drop, length_toList]
    omega
  · intro address shown _
    have bound : address < 4096 := by rwa [length_toList] at shown
    rw [getElem_toList _ bound, get_overlay]
    by_cases after : imageStart ≤ address
    · have past : (memory.toList.take 0x200).length ≤ address := by rwa [start]
      rw [if_pos after, List.getElem_append_right past]
      simp only [start, imageStart]
      by_cases inside : address - 0x200 < image.length
      · rw [List.getElem_append_left inside]
        simp [inside]
      · -- Behind the image the list goes on at the very address that was asked for.
        have place : 0x200 + image.length + (address - 0x200 - image.length) = address := by
          unfold imageStart at after
          omega
        rw [List.getElem_append_right (Nat.le_of_not_lt inside), List.getElem_drop,
          getElem_toList _ (place.symm ▸ bound)]
        simp [inside, place]
    · have kept : address < (memory.toList.take 0x200).length := by
        unfold imageStart at after
        omega
      rw [if_neg after, List.getElem_append_left kept, List.getElem_take,
        getElem_toList _ bound]

theorem toList_clearImage :
    memory.clearImage.toList = memory.toList.take 0x200 ++ List.replicate 3584 0 := by
  have start := memory.length_take_toList
  refine List.ext_getElem ?_ ?_
  · simp only [List.length_append, start, List.length_replicate, length_toList]
  · intro address shown _
    have bound : address < 4096 := by rwa [length_toList] at shown
    rw [getElem_toList _ bound, get_clearImage]
    by_cases after : imageStart ≤ address
    · have past : (memory.toList.take 0x200).length ≤ address := by rwa [start]
      rw [if_pos after, List.getElem_append_right past, List.getElem_replicate]
    · have kept : address < (memory.toList.take 0x200).length := by
        unfold imageStart at after
        omega
      rw [if_neg after, List.getElem_append_left kept, List.getElem_take,
        getElem_toList _ bound]

end ChipEight.Memory
