import MesosPoc.Json.Equality
import MesosPoc.Performance.Checkers.Decoded
import MesosPoc.Performance.Process.Counting

namespace MesosPoc.Performance

open Json

theorem check_of_pattern (checker : Checker) {event : Str} (beginTime : DateTime)
    (h : (pattern checker.type).isPrefixOf event = true) :
    checker.check event beginTime = checker.checkDecoded event beginTime := by
  have hdecode : decodeEvent checker.type event = decodeByType checker.type event := by
    rw [decodeEvent, if_pos h]
    rfl
  rw [check_eq, checkEvent, hdecode]
  rfl

theorem check_of_not_pattern (checker : Checker) {event : Str} (beginTime : DateTime)
    (h : ¬(pattern checker.type).isPrefixOf event = true) : checker.check event beginTime = .ok none := by
  have hdecode : decodeEvent checker.type event = .ok none := by
    rw [decodeEvent, if_neg h]
    rfl
  rw [check_eq, checkEvent, hdecode]
  rfl

-- A watch event, and a text that decodes to it up to the order of keys.

structure WatchEvent where
  data : Json
  type : Str
  object : Json
  hasType : data.getItem "type".toList = .ok (.str type)
  hasObject : data.getItem "object".toList = .ok object

structure WatchEvent.Text (e : WatchEvent) where
  text : Str
  data : Json
  decodes : Json.loads text = .ok data
  alike : Alike e.data data

def WatchEvent.Text.TypeFirst {e : WatchEvent} (t : e.Text) : Prop :=
  (pattern e.type).isPrefixOf t.text = true

-- Two outcomes of a check that no reader of the records can tell apart.
abbrev SameCheck : Except PyError (Option Record) → Except PyError (Option Record) → Prop :=
  SameOutcome (Option.Rel SameRecord)

theorem none_iff_of_sameCheck {result result' : Except PyError (Option Record)} (h : SameCheck result result') :
    result = .ok none ↔ result' = .ok none := by
  cases h with
  | error e => exact iff_of_false nofun nofun
  | ok h =>
      cases h with
      | none => exact Iff.rfl
      | some h => exact iff_of_false nofun nofun

section Texts

variable {e : WatchEvent} (checker : Checker) (beginTime : DateTime)

theorem alike_str {j : Json} {value : Str} (h : Alike (.str value) j) : j = .str value := by
  cases h with
  | str => rfl

-- A text of an event of another type is passed over by both checks.
theorem checkDecoded_other_type (t : e.Text) (h : e.type ≠ checker.type) :
    checker.checkDecoded t.text beginTime = .ok none := by
  have htype := t.alike.getItem "type".toList
  have hobject := t.alike.getItem "object".toList
  rw [e.hasType] at htype
  rw [e.hasObject] at hobject
  generalize hfound : t.data.getItem "type".toList = found at htype
  generalize hread : t.data.getItem "object".toList = read at hobject
  cases htype with
  | ok hkind =>
      cases hobject with
      | ok _ =>
          obtain rfl := alike_str hkind
          have hdecode : decodeByType checker.type t.text = .ok none := by
            rw [decodeByType, t.decodes]
            simp only [bind, Except.bind, hfound, hread, isStr, h, decide_false, Bool.false_eq_true, if_false, pure,
              Except.pure]
          rw [Checker.checkDecoded, hdecode]
          rfl

theorem check_of_typeFirst (t : e.Text) (h : t.TypeFirst) :
    checker.check t.text beginTime = checker.checkDecoded t.text beginTime := by
  by_cases htype : e.type = checker.type
  · unfold WatchEvent.Text.TypeFirst at h
    rw [htype] at h
    exact check_of_pattern checker beginTime h
  · by_cases hpattern : (pattern checker.type).isPrefixOf t.text = true
    · exact check_of_pattern checker beginTime hpattern
    · rw [check_of_not_pattern checker beginTime hpattern, checkDecoded_other_type checker beginTime t htype]

theorem check_of_not_typeFirst (t : e.Text) (h : ¬t.TypeFirst) : checker.check t.text beginTime = .ok none := by
  by_cases htype : e.type = checker.type
  · unfold WatchEvent.Text.TypeFirst at h
    rw [htype] at h
    exact check_of_not_pattern checker beginTime h
  · by_cases hpattern : (pattern checker.type).isPrefixOf t.text = true
    · rw [check_of_pattern checker beginTime hpattern, checkDecoded_other_type checker beginTime t htype]
    · exact check_of_not_pattern checker beginTime hpattern

-- The pattern changes nothing for the texts that begin with their type, and for the others
-- exactly when there was nothing to find.
theorem check_text_iff (t : e.Text) :
    checker.check t.text beginTime = checker.checkDecoded t.text beginTime ↔
      t.TypeFirst ∨ checker.checkDecoded t.text beginTime = .ok none := by
  by_cases hfirst : t.TypeFirst
  · exact iff_of_true (check_of_typeFirst checker beginTime t hfirst) (Or.inl hfirst)
  · rw [check_of_not_typeFirst checker beginTime t hfirst, eq_comm, or_iff_right hfirst]

theorem checkDecoded_texts (t t' : e.Text) :
    SameCheck (checker.checkDecoded t.text beginTime) (checker.checkDecoded t'.text beginTime) :=
  checkDecoded_alike checker beginTime t.decodes t'.decodes (Alike.of_common e.data t.alike t'.alike)

-- Two texts of an event are treated alike when both or neither begin with its type, or
-- when there was nothing to find.
theorem check_texts_iff (t t' : e.Text) :
    SameCheck (checker.check t.text beginTime) (checker.check t'.text beginTime) ↔
      (t.TypeFirst ↔ t'.TypeFirst) ∨ checker.checkDecoded t.text beginTime = .ok none := by
  have hdecoded := checkDecoded_texts checker beginTime t t'
  by_cases hfirst : t.TypeFirst
  · rw [check_of_typeFirst checker beginTime t hfirst]
    by_cases hfirst' : t'.TypeFirst
    · rw [check_of_typeFirst checker beginTime t' hfirst']
      exact iff_of_true hdecoded (Or.inl (iff_of_true hfirst hfirst'))
    · rw [check_of_not_typeFirst checker beginTime t' hfirst', or_iff_right (fun h => hfirst' (h.mp hfirst))]
      constructor
      · intro h
        exact (none_iff_of_sameCheck h).mpr rfl
      · intro hnone
        rw [hnone]
        exact .ok .none
  · rw [check_of_not_typeFirst checker beginTime t hfirst]
    by_cases hfirst' : t'.TypeFirst
    · rw [check_of_typeFirst checker beginTime t' hfirst', or_iff_right (fun h => hfirst (h.mpr hfirst'))]
      constructor
      · intro h
        exact (none_iff_of_sameCheck hdecoded).mpr ((none_iff_of_sameCheck h).mp rfl)
      · intro hnone
        rw [hnone] at hdecoded
        exact hdecoded
    · rw [check_of_not_typeFirst checker beginTime t' hfirst']
      exact iff_of_true (.ok .none) (Or.inl (iff_of_false hfirst hfirst'))

end Texts

-- The pattern agrees with the decoded check for the texts that begin with the type of
-- their event, and for the others exactly when there is nothing to find.
theorem check_agrees_iff (checker : Checker) (beginTime : DateTime) (e : WatchEvent) :
    (∀ t : e.Text, checker.check t.text beginTime = checker.checkDecoded t.text beginTime ↔
      t.TypeFirst ∨ checker.checkDecoded t.text beginTime = .ok none) ∧
    ∀ t t' : e.Text, SameCheck (checker.check t.text beginTime) (checker.check t'.text beginTime) ↔
      (t.TypeFirst ↔ t'.TypeFirst) ∨ checker.checkDecoded t.text beginTime = .ok none :=
  ⟨check_text_iff checker beginTime, check_texts_iff checker beginTime⟩

-- The event of a deleted pod as the API server writes it, and with a blank before each
-- of its two values.

def removedObject : Json :=
  .obj [("metadata".toList, .obj [("name".toList, .str "web-2".toList),
      ("namespace".toList, .str "default".toList), ("deletionTimestamp".toList, .str "2016-03-01T10:21:00Z".toList)]),
    ("spec".toList, .obj [("nodeName".toList, .str "node-1".toList)]),
    ("status".toList, .obj [("containerStatuses".toList, .arr [
      .obj [("state".toList, .obj [("terminated".toList, .obj [])]), ("ready".toList, .bool false)]])])]

def removedObjectText : Str :=
  "\x7b\"metadata\":\x7b\"name\":\"web-2\",\"namespace\":\"default\",".toList ++
    "\"deletionTimestamp\":\"2016-03-01T10:21:00Z\"\x7d,".toList ++
    "\"spec\":\x7b\"nodeName\":\"node-1\"\x7d,\"status\":\x7b".toList ++
    "\"containerStatuses\":[\x7b\"state\":\x7b\"terminated\":\x7b\x7d\x7d,".toList ++
    "\"ready\":false\x7d]\x7d\x7d".toList

def removedEvent : WatchEvent where
  data := .obj [("type".toList, .str deleted), ("object".toList, removedObject)]
  type := deleted
  object := removedObject
  hasType := rfl
  hasObject := rfl

def denseText : removedEvent.Text where
  text := message deleted removedObjectText
  data := removedEvent.data
  decodes := loads_of_loadsTo _ _ (by decide +kernel)
  alike := .refl _

def spacedText : removedEvent.Text where
  text := "\x7b\"type\": \"DELETED\",\"object\": ".toList ++ removedObjectText ++ "\x7d\n".toList
  data := removedEvent.data
  decodes := loads_of_loadsTo _ _ (by decide +kernel)
  alike := .refl _

-- The deletion is recorded from the one text and lost with the other.
theorem spaced_deletion_lost :
    Checker.deletion.check spacedText.text caseBegin = .ok none ∧
      (∃ record, Checker.deletion.checkDecoded spacedText.text caseBegin = .ok (some record)) ∧
      ∃ record, Checker.deletion.check denseText.text caseBegin = .ok (some record) := by
  have hfound : ∃ record, Checker.deletion.check denseText.text caseBegin = .ok (some record) :=
    (accepts_iff _ _ _).mp (by decide +kernel)
  have hfirst : denseText.TypeFirst := by
    unfold WatchEvent.Text.TypeFirst
    decide +kernel
  have hspaced : ¬spacedText.TypeFirst := by
    unfold WatchEvent.Text.TypeFirst
    decide +kernel
  refine ⟨check_of_not_typeFirst _ _ spacedText hspaced, ?_, hfound⟩
  obtain ⟨record, hrecord⟩ := hfound
  have hdecoded := checkDecoded_texts .deletion caseBegin denseText spacedText
  rw [← check_of_typeFirst _ _ denseText hfirst, hrecord] at hdecoded
  generalize Checker.deletion.checkDecoded spacedText.text caseBegin = result at hdecoded ⊢
  cases hdecoded with
  | ok h =>
      cases h with
      | some h => exact ⟨_, rfl⟩

end MesosPoc.Performance
