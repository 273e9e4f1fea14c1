import MesosPoc.Booting.Client

namespace MesosPoc.Booting.Client

-- A connection that has not been closed by the program with its channel still
-- up: _channel holds the channel as long as that is alive.
structure Ordered (c : Client) : Prop where
  held : c.held = true ↔ c.channel = .opened ∨ c.channel = .closing
  up : c.channel ≠ .closed → c.connection = .opened
  fresh : c.connection = .opening → c.requests = [.connectionOpen]
  opening : c.channel = .opening → c.requests = [.channelOpen]
  channelOpen : .channelOpen ∈ c.requests → c.channel = .opening
  channelClose : .channelClose ∈ c.requests ↔ c.channel = .closing
  connectionClose : .connectionClose ∈ c.requests → c.connection = .closing

theorem call_opened (c : Client) (request : Request) (hheld : c.held = true)
    (hopen : c.channel = .opened) :
    c.call request = .done { c with requests := c.requests ++ [request] } := by
  simp [call, hheld, hopen]

theorem call_not_opened (c : Client) (request : Request) (hheld : c.held = true)
    (hopen : c.channel ≠ .opened) : c.call request = .raise .channelClosed c := by
  simp [call, hheld, hopen]

theorem closeChannel_opened (c : Client) (hheld : c.held = true) (hopen : c.channel = .opened) :
    c.closeChannel =
      .done { c with channel := .closing, requests := c.requests ++ [.channelClose] } := by
  simp [closeChannel, call_opened c _ hheld hopen]

theorem closeChannel_not_opened (c : Client) (hheld : c.held = true) (hopen : c.channel ≠ .opened) :
    c.closeChannel = .raise .channelClosed c := by
  simp [closeChannel, call_not_opened c _ hheld hopen]

-- The requests answered on a channel that stays as it is.
def OnChannel (request : Request) : Prop :=
  request ≠ .connectionOpen ∧ request ≠ .channelOpen ∧ request ≠ .channelClose ∧
    request ≠ .connectionClose

theorem answer_cases {c answered : Client} {request : Request}
    (h : c.answer request = some answered) :
    request ∈ c.requests ∧
      ((request = .connectionOpen ∧ c.connection = .opening ∧
          answered = { c.drop request with connection := .opened }) ∨
        (request = .channelOpen ∧ c.connection = .opened ∧
          answered = { c.drop request with channel := .opened }) ∨
        (OnChannel request ∧ c.channel ≠ .closed ∧ answered = c.drop request)) := by
  unfold answer at h
  by_cases hm : request ∈ c.requests
  · rw [if_pos hm] at h
    refine ⟨hm, ?_⟩
    cases request <;> simp only [Option.ite_none_right_eq_some, Option.ite_none_left_eq_some,
      Option.some.injEq, reduceCtorEq] at h
    all_goals obtain ⟨hlink, rfl⟩ := h
    · exact Or.inl ⟨rfl, hlink, rfl⟩
    · exact Or.inr (Or.inl ⟨rfl, hlink, rfl⟩)
    all_goals exact Or.inr (Or.inr ⟨by simp [OnChannel], hlink, rfl⟩)
  · rw [if_neg hm] at h
    cases h

theorem mem_drop_iff (c : Client) (request other : Request) (hne : other ≠ request) :
    other ∈ (c.drop request).requests ↔ other ∈ c.requests :=
  List.mem_erase_of_ne hne

theorem not_opening (c : Client) (ho : c.Ordered) (hup : c.channel ≠ .closed) :
    c.connection ≠ .opening := by
  rw [ho.up hup]
  simp

theorem ordered_drop (c : Client) (request : Request) (ho : c.Ordered) (hon : OnChannel request)
    (hm : request ∈ c.requests) (hup : c.channel ≠ .closed) : (c.drop request).Ordered where
  held := ho.held
  up := ho.up
  fresh h := absurd h (not_opening c ho hup)
  opening h := by
    rw [ho.opening h, List.mem_singleton] at hm
    exact absurd hm hon.2.1
  channelOpen h := ho.channelOpen ((mem_drop_iff c request _ hon.2.1.symm).mp h)
  channelClose := (mem_drop_iff c request _ hon.2.2.1.symm).trans ho.channelClose
  connectionClose h := ho.connectionClose ((mem_drop_iff c request _ hon.2.2.2.symm).mp h)

theorem ordered_connectionOpen (c : Client) (ho : c.Ordered) (hopening : c.connection = .opening) :
    Client.openChannel { c.drop .connectionOpen with connection := .opened } =
      { c with connection := .opened, channel := .opening, requests := [.channelOpen] } ∧
    (Client.openChannel { c.drop .connectionOpen with connection := .opened }).Ordered := by
  have hr := ho.fresh hopening
  have heq : Client.openChannel { c.drop .connectionOpen with connection := .opened } =
      { c with connection := .opened, channel := .opening, requests := [.channelOpen] } := by
    simp [openChannel, drop, hr]
  have hheld : c.held = false := by
    cases hh : c.held with
    | false => rfl
    | true =>
        have hup := ho.up (by rcases ho.held.mp hh with h | h <;> simp [h])
        rw [hup] at hopening
        cases hopening
  refine ⟨heq, ?_⟩
  rw [heq]
  constructor <;> simp [hheld]

theorem ordered_channelOpen (c : Client) (ho : c.Ordered) (hup : c.connection = .opened)
    (hm : .channelOpen ∈ c.requests) :
    ({ c.drop .channelOpen with channel := .opened, held := true } : Client) =
      { c with channel := .opened, held := true, requests := [] } ∧
    Client.Ordered { c.drop .channelOpen with channel := .opened, held := true } := by
  have hr := ho.opening (ho.channelOpen hm)
  have heq : ({ c.drop .channelOpen with channel := .opened, held := true } : Client) =
      { c with channel := .opened, held := true, requests := [] } := by
    simp [drop, hr]
  refine ⟨heq, ?_⟩
  rw [heq]
  constructor <;> simp [hup]

theorem ordered_call (c : Client) (request : Request) (ho : c.Ordered) (hon : OnChannel request) :
    (c.call request).state.Ordered := by
  by_cases hheld : c.held = true
  · by_cases hopen : c.channel = .opened
    · rw [call_opened c request hheld hopen]
      have hup := ho.up (by simp [hopen])
      exact {
        held := ho.held
        up := ho.up
        fresh := by simp [hup]
        opening := by simp [hopen]
        channelOpen := by simpa [hon.2.1.symm] using ho.channelOpen
        channelClose := by simpa [hon.2.2.1.symm] using ho.channelClose
        connectionClose := by simpa [hon.2.2.2.symm] using ho.connectionClose }
    · rw [call_not_opened c request hheld hopen]
      exact ho
  · simpa [call, hheld] using ho

theorem ordered_closeChannel (c : Client) (ho : c.Ordered) (hheld : c.held = true) :
    c.closeChannel.state.Ordered := by
  by_cases hopen : c.channel = .opened
  · rw [closeChannel_opened c hheld hopen]
    have hup := ho.up (by simp [hopen])
    exact {
      held := by simp [hheld]
      up := by simp [hup]
      fresh := by simp [hup]
      opening := by simp
      channelOpen := by simpa [hopen] using ho.channelOpen
      channelClose := by simp
      connectionClose := by simpa using ho.connectionClose }
  · rw [closeChannel_not_opened c hheld hopen]
    exact ho

-- _on_channel_closed of a Client whose channel was alive.
theorem closeConnection_loseChannel (c : Client) (hup : c.connection = .opened) :
    c.loseChannel.release.closeConnection =
      { c with connection := .closing, channel := .closed, held := false,
               requests := c.loseChannel.requests ++ [.connectionClose] } := by
  simp [closeConnection, release, loseChannel, hup]

theorem ordered_closeConnection_loseChannel (c : Client) (hup : c.connection = .opened) :
    c.loseChannel.release.closeConnection.Ordered := by
  rw [closeConnection_loseChannel c hup]
  constructor <;> simp [loseChannel]

theorem ordered_loseConnection (c : Client) : c.loseConnection.release.Ordered := by
  constructor <;> simp [loseConnection, release]

end MesosPoc.Booting.Client
