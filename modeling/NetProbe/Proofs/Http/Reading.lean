import Mathlib.Data.List.Infix
import NetProbe.Http.Head
import NetProbe.Proofs.Results
set_option autoImplicit false

/-! # Readers that need what they take

Of a message that is cut off a reader must not make a shorter one. `Reads` says that a reader takes
given bytes off a stream, whatever follows them, and that of any part of them it makes nothing but
the end of the stream. A reader that is put together of others has this property when they have it
(`Reads.bind`). -/

namespace NetProbe.Http

/-- That a reader takes `bytes` off a stream and needs all of them. The result may depend on what is
    left of the stream, as the readers that hand it on do. -/
structure Reads {α : Type} (read : StreamEnd → Bytes → Except ResponseFault α) (bytes : Bytes)
    (result : Bytes → α) : Prop where
  whole : ∀ ending rest, read ending (bytes ++ rest) = .ok (result rest)
  cut : ∀ ending p, p <+: bytes → p ≠ bytes → read ending p = .error ending.fault

/-- A proper prefix of two parts ends within the first or within the second. -/
theorem proper_prefix_append {p a b : Bytes} (hp : p <+: a ++ b) (hne : p ≠ a ++ b) :
    (p <+: a ∧ p ≠ a) ∨ ∃ q, p = a ++ q ∧ q <+: b ∧ q ≠ b := by
  rcases List.prefix_or_prefix_of_prefix hp (List.prefix_append a b) with hpa | ⟨q, rfl⟩
  · by_cases heq : p = a
    · subst heq
      refine .inr ⟨[], (List.append_nil p).symm, List.nil_prefix, fun hb => hne ?_⟩
      rw [← hb, List.append_nil]
    · exact .inl ⟨hpa, heq⟩
  · exact .inr ⟨q, rfl, (List.prefix_append_right_inj a).1 hp, fun hb => hne (by rw [hb])⟩

namespace Reads

variable {α β : Type} {f : StreamEnd → Bytes → Except ResponseFault α} {a b : Bytes}
  {r : Bytes → α}

theorem of_eq {g : StreamEnd → Bytes → Except ResponseFault α} (hf : Reads f a r)
    (h : ∀ ending bytes, g ending bytes = f ending bytes) : Reads g a r where
  whole ending rest := by rw [h, hf.whole]
  cut ending p hp hne := by rw [h, hf.cut ending p hp hne]

/-- A reader that takes nothing. -/
theorem nothing (r : Bytes → α) : Reads (fun _ bytes => .ok (r bytes)) [] r where
  whole _ _ := rfl
  cut _ _ hp hne := absurd (List.prefix_nil.1 hp) hne

/-- One reader after another takes what both take. -/
theorem bind {g : StreamEnd → α → Except ResponseFault β} {r' : Bytes → β} (hf : Reads f a r)
    (hg : Reads (fun ending bytes => g ending (r bytes)) b r') :
    Reads (fun ending bytes => f ending bytes >>= g ending) (a ++ b) r' where
  whole ending rest := by
    rw [List.append_assoc, hf.whole, ok_bind]
    exact hg.whole ending rest
  cut ending p hp hne := by
    rcases proper_prefix_append hp hne with ⟨hpa, hnea⟩ | ⟨q, rfl, hq, hneq⟩
    · rw [hf.cut ending p hpa hnea, error_bind]
    · rw [hf.whole, ok_bind]
      exact hg.cut ending q hq hneq

theorem map (m : α → β) (hf : Reads f a r) :
    Reads (fun ending bytes => (f ending bytes).map m) a (fun rest => m (r rest)) where
  whole ending rest := by rw [hf.whole]; rfl
  cut ending p hp hne := by rw [hf.cut ending p hp hne]; rfl

end Reads

end NetProbe.Http
