import PixelBlocks.Proofs.Transform.Planes

/-!
# Segments fill the rectangle of a block

The size of a block is computed row by row and channel by channel, in the order of
its segments. So a block that has a size has segments, and these take all its bytes.
-/

namespace PixelBlocks

/-- Bytes of a row are added exactly if its samples are counted and the sum is a size. -/
theorem ChannelList.addRow_eq_ok_iff {bounds : Rectangle} {row : Int32} {total size : Nat}
    {channel : Channel} :
    addRow bounds row total channel = .ok size ↔
      ∃ samples, channel.samplesInRow row bounds = .ok samples ∧
        size = total + samples * channel.type.byteSize ∧ size < Size.bound := by
  simp only [addRow, Outcome.bind_eq_ok_iff, ← Size.mul?_bind_add?_eq_some_iff]
  refine exists_congr fun samples => and_congr_right fun _ => ?_
  cases (Size.mul? samples channel.type.byteSize).bind (Size.add? total) <;> simp

/-- The bytes of the first row are added, and then those of the rows below it. -/
theorem ChannelList.addRows_succ (channels : ChannelList) (bounds : Rectangle) (count : Nat)
    (row : Int32) (total : Nat) :
    channels.addRows bounds (count + 1) row total =
      channels.foldlM (addRow bounds row) total >>= channels.addRows bounds count (row + 1) := by
  rw [addRows]
  cases channels.foldlM (addRow bounds row) total <;> rfl

namespace Planes

/-- A row that adds to a size has segments, one of each channel's type. -/
theorem exists_rowSegments {channels : ChannelList} {bounds : Rectangle} {row : Int32}
    {total size : Nat}
    (added : channels.foldlM (ChannelList.addRow bounds row) total = .ok size) :
    ∃ segments, rowSegments bounds row channels = .ok segments ∧
      size = total + rawSize segments ∧ segments.map Segment.type = channels.map Channel.type := by
  induction channels generalizing total with
  | nil =>
    cases added
    exact ⟨[], rfl, rfl, rfl⟩
  | cons channel others inductionHypothesis =>
    rw [List.foldlM_cons] at added
    obtain ⟨here, first, later⟩ := Outcome.bind_eq_ok_iff.mp added
    obtain ⟨samples, counted, grown, -⟩ := ChannelList.addRow_eq_ok_iff.mp first
    obtain ⟨segments, found, sized, types⟩ := inductionHypothesis later
    refine ⟨⟨channel.type, samples⟩ :: segments, ?_, ?_, ?_⟩
    · rw [rowSegments] at found ⊢
      simp only [List.mapM_cons, counted, found, Outcome.ok_bind, pure_bind]
      rfl
    · rw [sized, grown, rawSize, Nat.add_assoc]
    · rw [List.map_cons, List.map_cons, types]

/-- Rows that add to a size have segments. -/
theorem exists_segmentsFrom {channels : ChannelList} {bounds : Rectangle} {count : Nat}
    {row : Int32} {total size : Nat}
    (added : channels.addRows bounds count row total = .ok size) :
    ∃ segments, segmentsFrom channels bounds count row = .ok segments ∧
      size = total + rawSize segments ∧
      ∀ segment ∈ segments, ∃ channel ∈ channels, channel.type = segment.type := by
  induction count generalizing row total with
  | zero =>
    cases added
    exact ⟨[], rfl, rfl, by simp⟩
  | succ count inductionHypothesis =>
    rw [ChannelList.addRows_succ] at added
    obtain ⟨here, first, later⟩ := Outcome.bind_eq_ok_iff.mp added
    obtain ⟨front, found, grown, types⟩ := exists_rowSegments first
    obtain ⟨back, below, sized, typed⟩ := inductionHypothesis later
    refine ⟨front ++ back, ?_, ?_, ?_⟩
    · simp [segmentsFrom, found, below]
    · rw [sized, grown, rawSize_append, Nat.add_assoc]
    · intro segment member
      rcases List.mem_append.mp member with inFront | inBack
      · have listed : segment.type ∈ channels.map Channel.type :=
          types ▸ List.mem_map_of_mem inFront
        exact List.mem_map.mp listed
      · exact typed segment inBack

/-- The segments of a block take as many bytes as the block. -/
theorem exists_segments {channels : ChannelList} {bounds : Rectangle} {size : Nat}
    (sized : channels.byteSize bounds = .ok size) :
    ∃ segments, Planes.segments channels bounds = .ok segments ∧ rawSize segments = size ∧
      ∀ segment ∈ segments, ∃ channel ∈ channels, channel.type = segment.type := by
  obtain ⟨corner, opposite, added⟩ := Outcome.bind_eq_ok_iff.mp sized
  obtain ⟨segments, found, filled, typed⟩ := exists_segmentsFrom added
  refine ⟨segments, ?_, by omega, typed⟩
  rw [Planes.segments, opposite, Outcome.ok_bind, found]

end Planes

end PixelBlocks
