import MesosPoc.Booting.Receiver
import MesosPoc.Booting.Client.Theorems
import MesosPoc.Machine

namespace MesosPoc.Booting.Receiver

open Machine

-- The warning is evaluated before the timer is added.
theorem connectionClosed_raises (r : Receiver) (hclosing : r.closing = false) :
    onConnectionClosed r = .raise (.nameError "eply_code".toList) { r with client := r.client.release } := by
  unfold onConnectionClosed
  simp only [hclosing, Bool.false_eq_true, if_false]
  rfl

theorem connectionClosed_stops (r : Receiver) (hclosing : r.closing = true) :
    onConnectionClosed r = .done { r with client := r.client.release, running := false } := by
  simp [onConnectionClosed, hclosing]

-- The close of a lost connection is not requested again.
theorem onChannelClosed_connectionLost (r : Receiver) :
    onChannelClosed r.connectionLost =
      .done { r with client := r.client.loseConnection.release, consuming := false } := by
  simp [onChannelClosed, connectionLost, Client.closeConnection, Client.release, Client.loseConnection]

theorem step_eq_some {ignoresUnknownTag : Bool} {settings : Settings} {r after : Receiver}
    {label : Label} (h : step ignoresUnknownTag settings r label = some after) :
    ∃ result, callback ignoresUnknownTag settings r label = some result ∧ finish result = after := by
  unfold step at h
  split at h
  · exact Option.map_eq_some_iff.mp h
  · cases h

-- A lost connection runs _on_connection_closed on a Receiver that has released
-- its channel, whether or not _on_channel_closed runs first.
theorem callback_connectionClosed {ignoresUnknownTag : Bool} {settings : Settings} {r : Receiver}
    {channelFirst : Bool} {result : Result}
    (h : callback ignoresUnknownTag settings r (.connectionClosed channelFirst) = some result) :
    result = onConnectionClosed
      { r with client := r.client.loseConnection.release, consuming := false } := by
  simp only [callback] at h
  split at h
  · cases h
  · split at h
    · rw [onChannelClosed_connectionLost, Outcome.done_andThen] at h
      exact (Option.some.inj h).symm
    · exact (Option.some.inj h).symm

theorem stop_opened (ignoresUnknownTag : Bool) (r : Receiver) (hheld : r.client.held = true)
    (hopen : r.client.channel = .opened) (hknown : (ignoresUnknownTag && r.unknownTag) = false) :
    stop ignoresUnknownTag r = .done { r with
      client := { r.client with requests := r.client.requests ++ [.basicCancel] }
      closing := true
      running := true } := by
  have hcancel : ({ r with closing := true } : Receiver).unknownTag = r.unknownTag := rfl
  simp only [stop, stopConsuming, hcancel, hknown, hheld, Bool.false_and, Bool.false_eq_true, if_true,
    if_false, onClient, Client.call_opened r.client _ hheld hopen, Outcome.within_done,
    Outcome.done_andThen]

theorem stop_not_opened (ignoresUnknownTag : Bool) (r : Receiver) (hheld : r.client.held = true)
    (hopen : r.client.channel ≠ .opened) :
    stop ignoresUnknownTag r = .raise .channelClosed { r with closing := true } := by
  simp [stop, stopConsuming, hheld, hopen, onClient, Client.call_not_opened r.client _ hheld hopen]

-- stop() makes no request without a channel, or for a tag that pika ignores.
theorem stop_silent (ignoresUnknownTag : Bool) (r : Receiver)
    (hsilent : r.client.held = false ∨
      r.client.channel = .opened ∧ (ignoresUnknownTag && r.unknownTag) = true) :
    stop ignoresUnknownTag r = .done { r with closing := true, running := true } := by
  rcases hsilent with hheld | ⟨hopen, hunknown⟩
  · simp [stop, stopConsuming, hheld]
  · have hcancel : ({ r with closing := true } : Receiver).unknownTag = r.unknownTag := rfl
    simp only [stop, stopConsuming, hcancel, hunknown, hopen, decide_true, Bool.and_true, if_true,
      ite_self, Outcome.done_andThen]

end MesosPoc.Booting.Receiver
