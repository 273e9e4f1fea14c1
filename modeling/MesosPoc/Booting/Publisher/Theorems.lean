import MesosPoc.Booting.Publisher
import MesosPoc.Booting.Client.Theorems
import MesosPoc.Machine
import Mathlib.Data.List.Nodup

namespace MesosPoc.Booting

namespace Confirms

theorem mem_outstanding (b : Confirms) (tag : Nat) :
    tag ∈ b.outstanding ↔ (1 ≤ tag ∧ tag ≤ b.published) ∧ tag ∉ b.covered := by
  simp only [outstanding, List.mem_filter, List.mem_range'_1, decide_eq_true_eq]
  constructor
  · rintro ⟨hr, hc⟩
    exact ⟨by omega, hc⟩
  · rintro ⟨hr, hc⟩
    exact ⟨by omega, hc⟩

theorem nodup_outstanding (b : Confirms) : b.outstanding.Nodup :=
  (List.nodup_range' 1).filter _

theorem mem_covered_cover (b : Confirms) (tags : List Nat) (kind : Confirmation) (tag : Nat) :
    tag ∈ (b.cover tags kind).covered ↔ tag ∈ b.covered ∨ tag ∈ tags := by
  cases kind <;> simp only [cover, covered, List.mem_append] <;> tauto

@[simp] theorem published_cover (b : Confirms) (tags : List Nat) (kind : Confirmation) :
    (b.cover tags kind).published = b.published := by
  cases kind <;> rfl

theorem outstanding_cover (b : Confirms) (tags : List Nat) (kind : Confirmation) :
    (b.cover tags kind).outstanding = b.outstanding.filter fun tag => tag ∉ tags := by
  simp only [outstanding, published_cover, List.filter_filter]
  apply List.filter_congr
  intro tag _
  simp only [mem_covered_cover]
  by_cases hc : tag ∈ b.covered <;> by_cases ht : tag ∈ tags <;> simp [hc, ht]

theorem outstanding_cover_self (b : Confirms) (tag : Nat) (kind : Confirmation) :
    (b.cover [tag] kind).outstanding = b.outstanding.erase tag := by
  rw [outstanding_cover, b.nodup_outstanding.erase_eq_filter]
  apply List.filter_congr
  intro other _
  by_cases he : other = tag <;> simp [he]

-- A new message is outstanding when no confirm covers tags of the future.
theorem outstanding_publish (b : Confirms) (hb : ∀ tag ∈ b.covered, tag ≤ b.published) :
    b.publish.outstanding = b.outstanding ++ [b.published + 1] := by
  have hnew : b.published + 1 ∉ b.covered := by
    intro hm
    have := hb _ hm
    omega
  have hcovered : b.publish.covered = b.covered := rfl
  have hpublished : b.publish.published = b.published + 1 := rfl
  rw [outstanding, hcovered, hpublished, List.range'_1_concat, List.filter_append, ← outstanding]
  rw [Nat.add_comm 1 b.published]
  simp [hnew]

theorem covers_subset (b : Confirms) (tag : Nat) (multiple : Bool) :
    b.covers tag multiple ⊆ b.outstanding := by
  unfold covers
  split <;> exact List.filter_subset_self _

theorem mem_covers_self (b : Confirms) (tag : Nat) (multiple : Bool) (hm : tag ∈ b.outstanding) :
    tag ∈ b.covers tag multiple := by
  unfold covers
  split <;> simp [hm]

end Confirms

namespace Publisher

theorem step_eq_some {settings : Settings} {p after : Publisher} {label : Label}
    (h : step settings p label = some after) :
    ∃ result, callback settings p label = some result ∧ finish result = after := by
  unfold step at h
  split at h
  · exact Option.map_eq_some_iff.mp h
  · cases h

-- A lost connection runs _on_connection_closed on a Publisher that has released
-- its channel, whether or not _on_channel_closed runs first.
theorem callback_connectionClosed {settings : Settings} {p : Publisher} {channelFirst : Bool}
    {result : Result} (h : callback settings p (.connectionClosed channelFirst) = some result) :
    p.client.connection ≠ .closed ∧
      result = onConnectionClosed { p with client := p.client.loseConnection.release } := by
  simp only [callback] at h
  split at h
  · cases h
  · rename_i hup
    refine ⟨hup, ?_⟩
    split at h
    · rw [← Option.some.inj h]
      cases hstopping : p.stopping <;>
        simp [onChannelClosed, onConnectionClosed, connectionLost, hstopping, Client.closeConnection,
          Client.loseConnection, Client.release]
    · exact (Option.some.inj h).symm

theorem onConnectionClosed_stopping (p : Publisher) (hstopping : p.stopping = true) :
    onConnectionClosed p = .done { p with client := p.client.release, running := false } := by
  simp [onConnectionClosed, hstopping]

theorem onConnectionClosed_retry (p : Publisher) (hstopping : p.stopping = false) :
    onConnectionClosed p =
      .done { p with client := p.client.release, retryTimers := p.retryTimers + 1 } := by
  simp [onConnectionClosed, hstopping]

end Publisher

end MesosPoc.Booting
