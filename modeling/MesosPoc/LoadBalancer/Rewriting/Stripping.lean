import MesosPoc.LoadBalancer.Rewriting
import MesosPoc.LoadBalancer.Routing

namespace MesosPoc.LoadBalancer

theorem dropSlash_suffix (text : Str) : dropSlash text <:+ text := by
  unfold dropSlash
  split
  · exact List.tail_suffix text
  · exact List.suffix_refl text

theorem strip_suffix (name text : Str) : strip name text <:+ text := by
  unfold strip
  split
  · exact (dropSlash_suffix _).trans (List.drop_suffix _ text)
  · exact List.suffix_refl text

theorem strip_iterate_suffix (name text : Str) (count : Nat) : (strip name)^[count] text <:+ text := by
  induction count generalizing text with
  | zero => exact List.suffix_refl text
  | succ count ih => exact (ih (strip name text)).trans (strip_suffix name text)

-- A name that starts the text makes it shorter.
theorem strip_length_lt (name text : Str) (hne : name ≠ []) (hn : name <+: text) :
    (strip name text).length < text.length := by
  have hpos := List.length_pos_iff.mpr hne
  have hle := hn.length_le
  have hdrop := (dropSlash_suffix (text.drop name.length)).length_le
  rw [List.length_drop] at hdrop
  rw [strip, if_pos hn]
  omega

-- The rule leaves a text alone exactly when the name does not start it.
theorem strip_iterate_eq_iff (name text : Str) (count : Nat) (hne : name ≠ []) :
    (strip name)^[count] text = text ↔ count = 0 ∨ ¬name <+: text := by
  constructor
  · intro h
    by_cases hn : name <+: text
    · cases count with
      | zero => exact Or.inl rfl
      | succ count =>
          have hlt := strip_length_lt name text hne hn
          have hle := (strip_iterate_suffix name (strip name text) count).length_le
          rw [← Function.iterate_succ_apply, h] at hle
          omega
    · exact Or.inr hn
  · rintro (rfl | hn)
    · rfl
    · have hfixed : strip name text = text := by rw [strip, if_neg hn]
      exact Function.iterate_fixed hfixed count

theorem prefix_of_blank (name path version : Str) (hblank : ' ' ∉ name)
    (h : name <+: path ++ ' ' :: version) : name <+: path := by
  induction path generalizing name with
  | nil =>
      cases name with
      | nil => exact List.nil_prefix
      | cons c name =>
          rw [List.nil_append, List.cons_prefix_cons] at h
          simp [h.1] at hblank
  | cons d path ih =>
      cases name with
      | nil => exact List.nil_prefix
      | cons c name =>
          rw [List.cons_append, List.cons_prefix_cons] at h
          obtain ⟨rfl, hrest⟩ := h
          have hname : ' ' ∉ name := fun hm => hblank (List.mem_cons_of_mem _ hm)
          exact List.cons_prefix_cons.mpr ⟨rfl, ih name hname hrest⟩

-- The rule only touches the path of a request line.
theorem strip_path (name path version : Str) (hblank : ' ' ∉ name) :
    strip name (path ++ ' ' :: version) = strip name path ++ ' ' :: version := by
  have hdrop : ∀ rest : Str, dropSlash (rest ++ ' ' :: version) = dropSlash rest ++ ' ' :: version := by
    intro rest
    cases rest with
    | nil => rfl
    | cons c rest =>
        by_cases hc : c = '/'
        · simp [dropSlash, hc]
        · simp [dropSlash, hc]
  by_cases hn : name <+: path
  · obtain ⟨rest, rfl⟩ := hn
    have hlong : name <+: name ++ rest ++ ' ' :: version := by
      rw [List.append_assoc]
      exact List.prefix_append name _
    rw [strip, strip, if_pos hlong, if_pos (List.prefix_append name rest), List.append_assoc,
      List.drop_left, List.drop_left, hdrop]
  · have hlong : ¬name <+: path ++ ' ' :: version := fun h => hn (prefix_of_blank name path version hblank h)
    rw [strip, strip, if_neg hlong, if_neg hn]

theorem strip_iterate_path (name path version : Str) (count : Nat) (hblank : ' ' ∉ name) :
    (strip name)^[count] (path ++ ' ' :: version) = (strip name)^[count] path ++ ' ' :: version := by
  induction count generalizing path with
  | zero => rfl
  | succ count ih => rw [Function.iterate_succ_apply, Function.iterate_succ_apply, strip_path _ _ _ hblank, ih]

theorem IsDnsLabel.blank_notMem {name : Str} (h : IsDnsLabel name) : ' ' ∉ name := by
  intro hm
  have hc := h.2.2.1 ' ' hm
  revert hc
  decide

theorem IsDnsLabel.ne_nil {name : Str} (h : IsDnsLabel name) : name ≠ [] :=
  List.length_pos_iff.mp h.1

-- A backend applies its rule once for each of its servers.
theorem rewrite_backendSection (item : Service) (method text : Str) (h : IsDnsLabel item.name)
    (hm : ∀ c ∈ method, c ≠ ' ' ∧ c ≠ ':') (ht : '\n' ∉ text) :
    rewrite (backendSection item).lines (method ++ ' ' :: '/' :: text) =
      method ++ ' ' :: '/' :: (strip item.name)^[item.endpoints.length] text := by
  rw [← List.length_zipIdx (l := item.endpoints) (i := 0)]
  simp only [rewrite, backendSection]
  generalize item.endpoints.zipIdx = entries
  induction entries generalizing text with
  | nil => rfl
  | cons entry rest ih =>
      have htext : '\n' ∉ strip item.name text := fun hmem => ht ((strip_suffix _ text).subset hmem)
      have hrule := applyRule_rule item.name method text h hm ht
      rw [List.map_cons, List.flatten_cons, List.foldl_append, List.length_cons,
        Function.iterate_succ_apply, ← ih (strip item.name text) htext]
      simp only [endpointLines, List.foldl_cons, List.foldl_nil, hrule]
      rfl

theorem linePath_line (method path version : Str) (hm : ∀ c ∈ method, c ≠ ' ' ∧ c ≠ ':')
    (hp : ' ' ∉ path) : linePath (method ++ ' ' :: (path ++ ' ' :: version)) = path := by
  have hmethod : ∀ c ∈ method, (c != ' ') = true := fun c hc => by simpa using (hm c hc).1
  have hpath : ∀ c ∈ path, (c != ' ') = true := by
    intro c hc
    have hne : c ≠ ' ' := fun heq => hp (heq ▸ hc)
    simpa using hne
  rw [linePath, List.dropWhile_append_of_pos hmethod, List.dropWhile_cons_of_neg (by simp), List.tail_cons,
    List.takeWhile_append_of_pos hpath, List.takeWhile_cons_of_neg (by simp), List.append_nil]

-- What the backend makes of a path.
theorem forwardedPath_eq (item : Service) (request : Request) (path : Str) (h : IsDnsLabel item.name)
    (hp : request.path = '/' :: path) :
    forwardedPath item request = '/' :: (strip item.name)^[item.endpoints.length] path := by
  have hchars : ∀ c ∈ path, c ≠ ' ' ∧ c ≠ '\n' := by
    intro c hc
    apply request.pathChars c
    rw [hp]
    exact List.mem_cons_of_mem _ hc
  have hnewline : '\n' ∉ path ++ ' ' :: request.version := by
    intro hm
    rcases List.mem_append.mp hm with hm | hm
    · exact (hchars '\n' hm).2 rfl
    · exact request.versionLine (by simpa using hm)
  have hblank : ' ' ∉ '/' :: (strip item.name)^[item.endpoints.length] path := by
    intro hm
    have hmem : ' ' ∈ path := (strip_iterate_suffix item.name path _).subset (by simpa using hm)
    exact (hchars ' ' hmem).1 rfl
  rw [forwardedPath, Request.line, hp, List.cons_append,
    rewrite_backendSection item request.method _ h request.methodToken hnewline,
    strip_iterate_path _ _ _ _ h.blank_notMem, ← List.cons_append]
  exact linePath_line request.method _ request.version request.methodToken hblank

theorem strip_name (name : Str) : strip name name = [] := by
  rw [strip, if_pos (List.prefix_refl name), List.drop_length]
  rfl

theorem strip_segment (name rest : Str) : strip name (name ++ '/' :: rest) = rest := by
  rw [strip, if_pos (List.prefix_append name _), List.drop_left]
  rfl

-- The remainder of a path is stripped again by every rule after the first.
theorem forwardedPath_segment (item : Service) (request : Request) (rest : Str) (h : IsDnsLabel item.name)
    (hn : item.endpoints ≠ []) (hp : request.path = aclPattern item.name ++ '/' :: rest) :
    forwardedPath item request = '/' :: (strip item.name)^[item.endpoints.length - 1] rest := by
  obtain ⟨count, hcount⟩ := Nat.exists_eq_succ_of_ne_zero (List.length_pos_iff.mpr hn).ne'
  rw [forwardedPath_eq item request (item.name ++ '/' :: rest) h hp, hcount, Function.iterate_succ_apply,
    strip_segment, Nat.succ_sub_one]

theorem forwardedPath_name (item : Service) (request : Request) (h : IsDnsLabel item.name)
    (hn : item.endpoints ≠ []) (hp : request.path = aclPattern item.name) :
    forwardedPath item request = ['/'] := by
  obtain ⟨count, hcount⟩ := Nat.exists_eq_succ_of_ne_zero (List.length_pos_iff.mpr hn).ne'
  have hempty : ¬item.name <+: [] := fun hprefix => h.ne_nil (List.prefix_nil.mp hprefix)
  rw [forwardedPath_eq item request item.name h hp, hcount, Function.iterate_succ_apply, strip_name,
    (strip_iterate_eq_iff item.name [] count h.ne_nil).mpr (Or.inr hempty)]

theorem forwardedPath_eq_segment_iff (item : Service) (request : Request) (rest : Str)
    (h : IsDnsLabel item.name) (hn : item.endpoints ≠ [])
    (hp : request.path = aclPattern item.name ++ '/' :: rest) :
    forwardedPath item request = '/' :: rest ↔ item.endpoints.length = 1 ∨ ¬item.name <+: rest := by
  have hpos := List.length_pos_iff.mpr hn
  rw [forwardedPath_segment item request rest h hn hp, List.cons.injEq, and_iff_right rfl,
    strip_iterate_eq_iff item.name rest _ h.ne_nil]
  apply or_congr_left
  omega

-- A service with one endpoint and one with two forward different paths, unless the
-- remainder does not start with the name.
theorem forwardedPath_independent_iff (item : Service) (request : Request) (rest : Str)
    (h : IsDnsLabel item.name) (hn : item.endpoints ≠ [])
    (hp : request.path = aclPattern item.name ++ '/' :: rest) :
    (∀ other : Service, other.name = item.name → other.endpoints ≠ [] →
      forwardedPath other request = forwardedPath item request) ↔ ¬item.name <+: rest := by
  constructor
  · intro hsame
    have hone := hsame ⟨item.name, [⟨[], 0⟩]⟩ rfl (by simp)
    have htwo := hsame ⟨item.name, [⟨[], 0⟩, ⟨[], 0⟩]⟩ rfl (by simp)
    have hfirst := (forwardedPath_eq_segment_iff ⟨item.name, [⟨[], 0⟩]⟩ request rest h (by simp) hp).mpr
      (Or.inl rfl)
    have hsecond := (forwardedPath_eq_segment_iff ⟨item.name, [⟨[], 0⟩, ⟨[], 0⟩]⟩ request rest h
      (by simp) hp).mp (htwo.trans (hone.symm.trans hfirst))
    rcases hsecond with hlength | hnot
    · cases hlength
    · exact hnot
  · intro hnot other hname hother
    have hitem := (forwardedPath_eq_segment_iff item request rest h hn hp).mpr (Or.inr hnot)
    rw [← hname] at h hp hnot
    exact ((forwardedPath_eq_segment_iff other request rest h hother hp).mpr (Or.inr hnot)).trans hitem.symm

-- The name is stripped once exactly when there is one endpoint, or when the
-- remainder of the path does not start with the name again. The number of
-- endpoints does not matter exactly in the second case.
theorem stripsOnce_iff (item : Service) (request : Request) (h : IsDnsLabel item.name)
    (hn : item.endpoints ≠ []) :
    (StripsOnce item request ↔ item.endpoints.length = 1 ∨
      ∀ rest, request.path = aclPattern item.name ++ '/' :: rest → ¬item.name <+: rest) ∧
    ∀ rest, request.path = aclPattern item.name ++ '/' :: rest →
      ((∀ other : Service, other.name = item.name → other.endpoints ≠ [] →
        forwardedPath other request = forwardedPath item request) ↔ ¬item.name <+: rest) := by
  refine ⟨⟨?_, ?_⟩, fun rest hp => forwardedPath_independent_iff item request rest h hn hp⟩
  · rintro ⟨-, hsegment⟩
    by_cases hone : item.endpoints.length = 1
    · exact Or.inl hone
    · refine Or.inr ?_
      intro rest hp
      have hcond := (forwardedPath_eq_segment_iff item request rest h hn hp).mp (hsegment rest hp)
      exact hcond.resolve_left hone
  · intro hcond
    refine ⟨forwardedPath_name item request h hn, ?_⟩
    intro rest hp
    apply (forwardedPath_eq_segment_iff item request rest h hn hp).mpr
    rcases hcond with hone | hnot
    · exact Or.inl hone
    · exact Or.inr (hnot rest hp)

def webService : Service :=
  ⟨"web".toList, [⟨"10.0.0.1".toList, 80⟩]⟩

def webTwice : Service :=
  ⟨"web".toList, [⟨"10.0.0.1".toList, 80⟩, ⟨"10.0.0.2".toList, 80⟩]⟩

def webRequest : Request where
  method := "GET".toList
  path := "/web/web/x".toList
  version := "HTTP/1.1".toList
  methodToken := by simp
  pathChars := by simp
  versionLine := by simp

theorem webService_strips :
    IsDnsLabel webService.name ∧ webService.endpoints ≠ [] ∧
      (StripsOnce webService webRequest ↔ webService.endpoints.length = 1 ∨
        ∀ rest, webRequest.path = aclPattern webService.name ++ '/' :: rest → ¬webService.name <+: rest) :=
  ⟨by decide, by decide, (stripsOnce_iff webService webRequest (by decide) (by decide)).1⟩

-- With a second endpoint the rule runs twice and takes a part of the path that
-- only looks like the prefix.
theorem webTwice_strips_twice :
    forwardedPath webService webRequest = "/web/x".toList ∧
      forwardedPath webTwice webRequest = "/x".toList ∧ ¬StripsOnce webTwice webRequest := by
  have htwice : forwardedPath webTwice webRequest = "/x".toList := by decide +kernel
  refine ⟨by decide +kernel, htwice, ?_⟩
  rintro ⟨-, hsegment⟩
  have hone := hsegment "web/x".toList (by decide)
  rw [htwice] at hone
  revert hone
  decide

end MesosPoc.LoadBalancer
