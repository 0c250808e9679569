import Crossroads.Bytes.Checksum

/-!
# What sinks accept

Octets may be offered to a metered sink in any pieces, and again when they have not been accepted.
`Metered.Receives` says which octets the inner sink has accepted on the way from one state to
another.

* `Metered.Receives.digest_eq` — these octets have been digested, in their order, and no others.
* `Metered.exists_receives_writeAll` — a sink that goes on accepting receives all pieces that are
  written to it.
-/

namespace Crossroads

variable {σ : Type} {sink : Sink σ}

/-- Of what it is offered, the sink accepts some octets from the front; none only if there are none. -/
structure Sink.Accepting (sink : Sink σ) : Prop where
  accepted_le : ∀ state bytes, (sink.offer state bytes).2 ≤ bytes.length
  accepted_pos : ∀ state bytes, bytes ≠ [] → 0 < (sink.offer state bytes).2

namespace Metered

/-- Octets have been offered any number of times since the metered sink was in state `m`.  The inner
sink has accepted these, one after another. -/
inductive Receives (sink : Sink σ) (m : Metered σ) : Bytes → Metered σ → Prop
  | nothing : Receives sink m [] m
  | offered {received : Bytes} {m' : Metered σ} (bytes : Bytes) : Receives sink m received m' →
      Receives sink m (received ++ bytes.take (sink.offer m'.inner bytes).2) (m'.offer sink bytes).1

section

variable {m m₁ m₂ : Metered σ} {received more : Bytes}

/-- An offer digests what is accepted, not what is offered. -/
theorem digest_offer (m : Metered σ) (bytes : Bytes) : (m.offer sink bytes).1.digest
    = m.digest.update (bytes.take (sink.offer m.inner bytes).2) := rfl

theorem Receives.digest_eq (h : Receives sink m received m₁) :
    m₁.digest = m.digest.update received := by
  induction h with
  | nothing => rfl
  | offered bytes _ ih => rw [digest_offer, ih, Digest.update_append]

theorem Receives.trans (h₁ : Receives sink m received m₁) (h₂ : Receives sink m₁ more m₂) :
    Receives sink m (received ++ more) m₂ := by
  induction h₂ with
  | nothing => rwa [List.append_nil]
  | offered bytes _ ih =>
    rw [← List.append_assoc]
    exact ih.offered bytes

end

/-- What has not been accepted is offered again, so that in the end the sink has received all. -/
theorem exists_receives_offerAll (h : sink.Accepting) (m : Metered σ) (bytes : Bytes) :
    ∃ m', m.offerAll sink bytes = some m' ∧ Receives sink m bytes m' := by
  fun_induction offerAll sink m bytes with
  | case1 m => exact ⟨m, rfl, .nothing⟩
  | case2 m b rest m' hnone =>
    have hpos := h.accepted_pos m.inner (b :: rest) (List.cons_ne_nil b rest)
    exact absurd (congrArg Prod.snd hnone) (Nat.ne_of_gt hpos)
  | case3 m b rest m₁ accepted hsome ih =>
    obtain ⟨m₂, hwritten, hrest⟩ := ih
    have hcount : (sink.offer m.inner (b :: rest)).2 = accepted + 1 := congrArg Prod.snd hsome
    have hfirst : Receives sink m ((b :: rest).take (accepted + 1)) m₁ := by
      have hnothing : Receives sink m [] m := .nothing
      have hoffered := hnothing.offered (b :: rest)
      rwa [hsome, hcount] at hoffered
    have hwhole := hfirst.trans hrest
    rw [List.take_succ_cons, List.cons_append, List.take_append_drop] at hwhole
    exact ⟨m₂, hwritten, hwhole⟩

theorem exists_receives_writeAll (h : sink.Accepting) (m : Metered σ) (pieces : List Bytes) :
    ∃ m', m.writeAll sink pieces = some m' ∧ Receives sink m pieces.flatten m' := by
  induction pieces generalizing m with
  | nil => exact ⟨m, rfl, .nothing⟩
  | cons piece pieces ih =>
    obtain ⟨m₁, hpiece, hfirst⟩ := exists_receives_offerAll h m piece
    obtain ⟨m₂, hpieces, hrest⟩ := ih m₁
    refine ⟨m₂, ?_, hfirst.trans hrest⟩
    rw [writeAll, List.foldlM_cons, hpiece]
    exact hpieces

end Metered

end Crossroads
