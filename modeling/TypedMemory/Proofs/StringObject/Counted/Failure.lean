import TypedMemory.Proofs.Integer
import TypedMemory.Proofs.StringObject.Counted
import TypedMemory.Proofs.StringObject.Failure

/-!
# Failed writes to an object with counted references

There are two ways to spoil the object (`Spoiled`).  A new block may not be filled, and the
object points to it.  Or the header of the old block promises more bytes than there are:
then the length is set before the characters are refused.
-/

namespace TypedMemory

open Access StringObject

namespace CountedString

variable {p : Platform} {s : Schema} {order : ByteOrder} {a block : Address} {b b' : Buffer}
  {text : String}

/-! ### Objects that can be read -/

/-- The object is found through its pointer. -/
theorem exists_pointer_of_locate {string : CountedString}
    (h : (locate (Buffer.space p s) a order).Yields b string b') :
    ∃ target, b.HoldsWord p order a.toNat target := by
  unfold locate at h
  rw [layout_countedString_eq, liftM_ok_bind] at h
  dsimp only [Buffer.toPort_space, Buffer.port] at h
  rw [addressOf_pointer, liftM_ok_bind] at h
  obtain ⟨null, t, hnull, -⟩ := yields_bind.mp h
  obtain ⟨target, u, htarget, -⟩ := yields_bind.mp hnull
  exact ⟨target, (targetAddress_yields_iff.mp htarget).2⟩

/-- An object that can be read has a pointer, and if this is not null it points behind a
length. -/
theorem exists_pointer_of_read (hread : (read (Buffer.space p s) a order).Yields b text b') :
    ∃ target : Address, b.HoldsWord p order a.toNat target ∧ (target ≠ 0 →
      ∃ n length, b.Mapped target.toNat n ∧
        b.HoldsCount p order (target.move (-((2 * p.pointerSize : Nat) : Int))).toNat length) := by
  obtain ⟨target, hpointer⟩ : ∃ target, b.HoldsWord p order a.toNat target := by
    obtain ⟨string, t, hlocate, -⟩ := yields_bind.mp hread
    exact exists_pointer_of_locate hlocate
  refine ⟨target, hpointer, fun hne => ?_⟩
  unfold read at hread
  rw [(locate_yields_header hpointer hne).bind_iff] at hread
  dsimp only at hread
  obtain ⟨length, t, hlength, hrest⟩ := yields_bind.mp hread
  obtain ⟨rfl, hcount⟩ := (CompositeView.readCount_yields_iff addressOf_length).mp hlength
  rw [(yields_liftM.mpr ⟨addressOf_content, rfl⟩).bind_iff] at hrest
  obtain ⟨bytes, t', hbytes, -⟩ := yields_bind.mp hrest
  exact ⟨_, length, (Buffer.readBytes_yields_iff.mp hbytes).2.2.mapped, hcount⟩

end CountedString

end TypedMemory
