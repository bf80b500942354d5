import ParanOS.Exfat.Refusal

/-! # Failed calls on both file systems

When a call that fails on a device without faults leaves the table, the bitmap
and the directories as they were, and a call that does not.
-/

namespace ParanOS

open Foundation

/-- In the root directory of the small volume there is room, and clusters are free. -/
theorem formatted_spared :
    Spared smallVol (view smallVol smallVol.clusterLimit formatted) smallVol.rootClus
      [[0x41], [0x42]] := by
  have linked : Linked (view smallVol smallVol.clusterLimit formatted).next EndOfChain
      smallVol.rootClus [smallVol.rootClus] := .single (by decide) (by decide)
  rw [Spared.absent linked]
  · refine .inr ⟨⟨⟨2, 0, 0⟩, by decide, .inl (by decide)⟩, ?_⟩
    decide
  · intro slot first
    exact formatted_blank slot first.mem first.matched.listed

theorem exfatImage_spared :
    (Call.writeFile (.ofArray [0x41]) [1]).ExfatSpared exfatVol (exfatImage 6) := by
  have linked : Linked (exfatView exfatVol (exfatImage 6)).next EndOfChain exfatVol.rootClus
      [exfatVol.rootClus] := .single (by decide) (by decide)
  have comps : (CString.ofArray [0x41]).componentsLong = [[0x41]] := by decide
  rw [Call.ExfatSpared, comps, Throughout.stops linked fun _ _ => .inl rfl]
  have counted : ¬ Overflowing exfatVol [1] := fun overflow => absurd overflow.2 (by decide)
  refine ⟨fun _ overflow => absurd overflow counted, fun _ _ => ⟨fun _ _ => ?_, ?_, ?_⟩⟩
  · refine .inr (.inr ⟨.inl rfl, .inr ?_⟩)
    decide
  · exact fun more => absurd rfl more
  · exact fun more => absurd rfl more

end ParanOS
