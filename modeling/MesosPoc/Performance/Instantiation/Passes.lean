import MesosPoc.Performance.Instantiation.Holes
import Mathlib.Data.List.Perm.Basic
import Mathlib.Data.List.Pairwise

namespace MesosPoc.Performance

open Replace

-- One pass of sed over a line, for a placeholder and the text that it puts in.
def pass (inserted : Pair → Str) (s : Str) (pair : Pair) : Str :=
  replaceAll pair.placeholder.text (inserted pair) s

-- A value stays out of the way of another placeholder.
def Clear (p q : Pair) : Prop :=
  q.value = q.placeholder.text ∨ Separate p.value q.placeholder.text

def Distinct (pairs : List Pair) : Prop :=
  pairs.Pairwise fun p q => p.placeholder ≠ q.placeholder

section Order

theorem Distinct.perm {pairs order : List Pair} (h : Distinct pairs) (hp : order.Perm pairs) :
    Distinct order :=
  (hp.pairwise_iff (fun hne heq => hne heq.symm)).mpr h

theorem valueOf_of_mem (pairs : List Pair) (hd : Distinct pairs) (p : Pair) (hp : p ∈ pairs) :
    valueOf pairs p.placeholder.name = p.value := by
  induction pairs with
  | nil => cases hp
  | cons q rest ih =>
      obtain ⟨hq, hrest⟩ := List.pairwise_cons.mp hd
      rcases List.mem_cons.mp hp with rfl | hm
      · simp [valueOf]
      · have hne : q.placeholder.name ≠ p.placeholder.name :=
          fun h => hq p hm (Placeholder.eq_of_name h)
        have hih := ih hrest hm
        simp only [valueOf, List.find?_cons, hne, decide_false] at hih ⊢
        exact hih

theorem valueOf_of_not_mem (pairs : List Pair) (p : Placeholder) (h : ∀ q ∈ pairs, q.placeholder ≠ p) :
    valueOf pairs p.name = p.text := by
  have hnone : (pairs.find? fun q => q.placeholder.name = p.name) = none := by
    rw [List.find?_eq_none]
    intro q hq hname
    exact h q hq (Placeholder.eq_of_name (of_decide_eq_true hname))
  rw [valueOf, hnone]
  rfl

theorem valueOf_concat (done : List Pair) (q : Pair) (hd : Distinct (done ++ [q])) (p : Placeholder) :
    valueOf (done ++ [q]) p.name = Function.update (valueOf done) q.placeholder.name q.value p.name := by
  by_cases hp : p.name = q.placeholder.name
  · rw [hp, Function.update_self]
    exact valueOf_of_mem (done ++ [q]) hd q (List.mem_append_right _ List.mem_cons_self)
  · rw [Function.update_of_ne hp]
    have hq : ([q].find? fun pair => pair.placeholder.name = p.name) = none := by
      simp [Ne.symm hp]
    simp only [valueOf, List.find?_append, hq, Option.or_none]

theorem valueOf_concat_self (done : List Pair) (q : Pair) (hd : Distinct (done ++ [q]))
    (hq : q.value = q.placeholder.text) (p : Placeholder) :
    valueOf (done ++ [q]) p.name = valueOf done p.name := by
  rw [valueOf_concat done q hd p]
  by_cases hp : p = q.placeholder
  · have hdone : ∀ r ∈ done, r.placeholder ≠ p := by
      intro r hr
      rw [hp]
      exact (List.pairwise_append.mp hd).2.2 r hr q List.mem_cons_self
    rw [valueOf_of_not_mem done p hdone, hp, Function.update_self, hq]
  · exact Function.update_of_ne (fun h => hp (Placeholder.eq_of_name h)) _ _

theorem separate_valueOf (done : List Pair) (hd : Distinct done) (q : Placeholder)
    (hc : ∀ p ∈ done, Separate p.value q.text) (p : Placeholder) (hp : p ≠ q) :
    Separate (valueOf done p.name) q.text := by
  by_cases hm : ∃ r ∈ done, r.placeholder = p
  · obtain ⟨r, hr, rfl⟩ := hm
    rw [valueOf_of_mem done hd r hr]
    exact hc r hr
  · push Not at hm
    rw [valueOf_of_not_mem done p hm]
    exact p.separate q hp

-- One pass: the placeholder of the next pair gets its value, and nothing else changes.
theorem pass_fill (inserted : Pair → Str) (done : List Pair) (q : Pair) (hd : Distinct (done ++ [q]))
    (hi : inserted q = q.value) (hc : ∀ p ∈ done, Clear p q) (s : Str) :
    pass inserted (fill (valueOf done) s) q = fill (valueOf (done ++ [q])) s := by
  unfold pass
  rw [hi]
  by_cases hq : q.value = q.placeholder.text
  · rw [hq, replaceAll_self q.placeholder.text q.placeholder.text_ne_nil]
    exact fill_congr _ _ (fun p => (valueOf_concat_self done q hd hq p).symm) s
  · obtain ⟨hdone, -, hlast⟩ := List.pairwise_append.mp hd
    have hfree : valueOf done q.placeholder.name = q.placeholder.text :=
      valueOf_of_not_mem done q.placeholder fun p hp => hlast p hp q List.mem_cons_self
    have hsep := separate_valueOf done hdone q.placeholder fun p hp => (hc p hp).resolve_left hq
    rw [replaceAll_fill (valueOf done) q.placeholder q.value hfree hsep]
    exact fill_congr _ _ (fun p => (valueOf_concat done q hd p).symm) s

-- The passes done so far are those of a list of pairs.
theorem foldl_fill (inserted : Pair → Str) (todo done : List Pair) (hd : Distinct (done ++ todo))
    (hi : ∀ p ∈ todo, inserted p = p.value)
    (hc : (done ++ todo).Pairwise fun p q => q ∈ todo → Clear p q) (s : Str) :
    todo.foldl (pass inserted) (fill (valueOf done) s) = fill (valueOf (done ++ todo)) s := by
  induction todo generalizing done with
  | nil => rw [List.foldl_nil, List.append_nil]
  | cons q todo ih =>
      have hsplit : done ++ q :: todo = done ++ [q] ++ todo := by simp
      obtain ⟨hqi, hrest⟩ := List.forall_mem_cons.mp hi
      rw [hsplit] at hd hc
      have hdone : ∀ p ∈ done, Clear p q := by
        intro p hp
        have hlast := (List.pairwise_append.mp (List.pairwise_append.mp hc).1).2.2
        exact hlast p hp q List.mem_cons_self List.mem_cons_self
      rw [List.foldl_cons, pass_fill inserted done q (List.pairwise_append.mp hd).1 hqi hdone, hsplit]
      exact ih (done ++ [q]) hd hrest (hc.imp fun h hm => h (List.mem_cons_of_mem q hm))

end Order

section Contexts

-- What is left of a placeholder without its last brace, or without its first.

theorem noHole_of_prefix (p : Placeholder) (x y : Str) (h : x ++ y = p.text) (hy : y ≠ []) : NoHole x := by
  intro q ⟨before, after, hq⟩
  have hmem : '}' ∈ x := by
    rw [← hq]
    simp [Placeholder.text]
  have hbody : x <+: '{' :: p.name := by
    have hwhole : x <+: '{' :: p.name ++ ['}'] := ⟨y, h⟩
    have hlen := congrArg List.length h
    have hpos : 0 < y.length := List.length_pos_of_ne_nil hy
    rw [Placeholder.text, List.length_append, List.length_append, List.length_singleton] at hlen
    exact List.prefix_of_prefix_length_le hwhole (List.prefix_append _ _) (by omega)
  rcases List.mem_cons.mp (hbody.subset hmem) with hc | hc
  · cases hc
  · exact (Placeholder.isNameChar_ne (p.chars _ hc)).2 rfl

theorem noHole_of_suffix (p : Placeholder) (x y : Str) (h : x ++ y = p.text) (hx : x ≠ []) : NoHole y := by
  intro q ⟨before, after, hq⟩
  have hy : x ++ before ++ '{' :: (q.name ++ ['}'] ++ after) = p.text := by
    rw [← h, ← hq]
    simp [Placeholder.text]
  exact p.text_split_left (x ++ before) _ '{' hy (by simp [hx]) rfl

theorem infix_of_covered (x middle y before old after : Str) (h : x ++ middle ++ y = before ++ old ++ after)
    (hx : x.length ≤ before.length) (hy : before.length + old.length ≤ x.length + middle.length) :
    old <:+: middle := by
  rw [List.append_assoc, List.append_assoc] at h
  rcases List.append_eq_append_iff.mp h with ⟨d, hd, hmiddle⟩ | ⟨d, hd, hold⟩
  · apply infix_of_append_le old middle y d after
    · rw [List.append_assoc]
      exact hmiddle
    · rw [hd, List.length_append] at hy
      omega
  · have hlen := congrArg List.length hd
    rw [List.length_append] at hlen
    obtain rfl : d = [] := List.length_eq_zero_iff.mp (by omega)
    rw [List.nil_append] at hold
    apply infix_of_append_le old middle y [] after
    · rw [List.nil_append]
      exact hold.symm
    · rw [hd, List.append_nil] at hy
      rw [List.length_nil]
      omega

theorem noHole_left (q : Placeholder) (l rest a b : Str) (heq : l ++ rest = a ++ (q.text ++ b))
    (hlen : l.length < a.length + q.text.length) : NoHole (l.drop a.length) := by
  rcases List.append_eq_append_iff.mp heq with ⟨d, rfl, -⟩ | ⟨d, rfl, hd⟩
  · rw [List.drop_of_length_le (by simp)]
    exact noHole_nil
  · rw [List.drop_left]
    rw [List.length_append] at hlen
    rcases List.append_eq_append_iff.mp hd with ⟨e, he, -⟩ | ⟨e, he, -⟩
    · rw [he, List.length_append] at hlen
      omega
    · apply noHole_of_prefix q d e he.symm
      rintro rfl
      rw [he, List.append_nil] at hlen
      omega

theorem noHole_right (q : Placeholder) (front r a b : Str) (heq : front ++ r = a ++ (q.text ++ b))
    (hlen : a.length < front.length) : NoHole (r.take (a.length + q.text.length - front.length)) := by
  rcases List.append_eq_append_iff.mp heq with ⟨d, hd, -⟩ | ⟨d, rfl, hd⟩
  · rw [hd, List.length_append] at hlen
    omega
  · have hne : d ≠ [] := by
      rintro rfl
      simp at hlen
    rcases List.append_eq_append_iff.mp hd with ⟨e, he, -⟩ | ⟨e, he, hr⟩
    · have hzero : a.length + q.text.length - (a ++ d).length = 0 := by
        rw [he, List.length_append, List.length_append]
        omega
      rw [hzero]
      exact noHole_nil
    · have hlast : a.length + q.text.length - (a ++ d).length = e.length := by
        rw [he, List.length_append, List.length_append]
        omega
      rw [hlast, hr, List.take_left]
      exact noHole_of_suffix q d e he.symm hne

-- Where a value is not separate from a placeholder, this shows in a text that has no
-- other placeholder.
theorem exists_context (value : Str) (q : Placeholder) (h : ¬Separate value q.text) :
    ∃ left right : Str, NoHole left ∧ NoHole right ∧ q.text <:+: left ++ value ++ right := by
  unfold Separate at h
  push Not at h
  obtain ⟨l, r, a, b, heq, hleft, hright⟩ := h
  have hlen := congrArg List.length heq
  simp only [List.length_append] at hlen
  refine ⟨l.drop a.length, r.take (a.length + q.text.length - (l ++ value).length), ?_, ?_, ?_⟩
  · apply noHole_left q l (value ++ r) a b _ hleft
    simpa using heq
  · apply noHole_right q (l ++ value) r a b _ (by rw [List.length_append]; exact hright)
    simpa using heq
  · apply infix_of_covered (l.take a.length) _ (r.drop (a.length + q.text.length - (l ++ value).length)) a
      q.text b
    · have hl := List.take_append_drop a.length l
      have hr := List.take_append_drop (a.length + q.text.length - (l ++ value).length) r
      calc _ = List.take a.length l ++ List.drop a.length l ++ value ++
            (List.take (a.length + q.text.length - (l ++ value).length) r ++
              List.drop (a.length + q.text.length - (l ++ value).length) r) := by
            simp only [List.append_assoc]
        _ = a ++ q.text ++ b := by rw [hl, hr, heq]
    · exact List.length_take_le _ _
    · simp only [List.length_append, List.length_take, List.length_drop]
      omega

theorem not_infix_context (left right : Str) (p q : Placeholder) (hne : p ≠ q) (hleft : NoHole left)
    (hright : NoHole right) : ¬q.text <:+: left ++ p.text ++ right := by
  rintro ⟨before, after, h⟩
  rcases p.overlap q left right before after h.symm with hlen | hlen | ⟨-, hpq⟩
  · apply hleft q
    apply infix_of_append_le q.text left (p.text ++ right) before after _ hlen
    rw [← List.append_assoc]
    exact h.symm
  · apply hright q
    have hcovered : before ++ q.text ++ after = left ++ p.text ++ right ++ [] := by
      rw [h, List.append_nil]
    apply infix_of_covered (left ++ p.text) right [] before q.text after
    · rw [← hcovered]
    · rw [List.length_append]
      exact hlen
    · have htotal := congrArg List.length h
      simp only [List.length_append] at htotal ⊢
      omega
  · exact hne hpq

end Contexts

section Characterization

variable (inserted : Pair → Str)

theorem foldl_idle (others : List Pair) (s : Str) (h : ∀ p ∈ others, ¬p.placeholder.text <:+: s) :
    others.foldl (pass inserted) s = s := by
  induction others with
  | nil => rfl
  | cons p others ih =>
      obtain ⟨hp, hrest⟩ := List.forall_mem_cons.mp h
      rw [List.foldl_cons, pass, replaceAll_of_not_infix p.placeholder.text (inserted p) s hp]
      exact ih hrest

theorem valueOf_perm (pairs order : List Pair) (hd : Distinct pairs) (hp : order.Perm pairs) (p : Placeholder) :
    valueOf order p.name = valueOf pairs p.name := by
  by_cases hm : ∃ q ∈ pairs, q.placeholder = p
  · obtain ⟨q, hq, rfl⟩ := hm
    rw [valueOf_of_mem pairs hd q hq, valueOf_of_mem order (hd.perm hp) q (hp.mem_iff.mpr hq)]
  · push Not at hm
    rw [valueOf_of_not_mem pairs p hm, valueOf_of_not_mem order p fun q hq => hm q (hp.mem_iff.mp hq)]

theorem Distinct.split (before after : List Pair) (p : Pair) (hd : Distinct (before ++ p :: after)) :
    (before ++ after ++ [p]).Perm (before ++ p :: after) ∧
      ∀ q ∈ before ++ after, q.placeholder ≠ p.placeholder := by
  refine ⟨?_, ?_⟩
  · rw [List.append_assoc]
    exact (List.perm_append_singleton p after).append_left before
  · intro q hq
    obtain ⟨-, hafter, hcross⟩ := List.pairwise_append.mp hd
    rcases List.mem_append.mp hq with hq | hq
    · exact hcross q hq p List.mem_cons_self
    · exact fun h => (List.pairwise_cons.mp hafter).1 q hq h.symm

-- A pair in its own text, with its pass as the last one.
theorem last_pass (pairs : List Pair) (hd : Distinct pairs) (p : Pair) (hp : p ∈ pairs) :
    ∃ order : List Pair, order.Perm pairs ∧ order.foldl (pass inserted) p.placeholder.text = inserted p := by
  obtain ⟨before, after, rfl⟩ := List.append_of_mem hp
  obtain ⟨hperm, hne⟩ := hd.split before after p
  refine ⟨before ++ after ++ [p], hperm, ?_⟩
  have hidle : (before ++ after).foldl (pass inserted) p.placeholder.text = p.placeholder.text := by
    apply foldl_idle
    intro q hq
    have hcontext := not_infix_context [] [] p.placeholder q.placeholder (hne q hq).symm noHole_nil noHole_nil
    simpa using hcontext
  have hown := replaceAll_old_append p.placeholder.text (inserted p) p.placeholder.text_ne_nil []
  rw [List.append_nil, replaceAll_nil, List.append_nil] at hown
  rw [List.foldl_append, hidle, List.foldl_cons, List.foldl_nil]
  exact hown

-- A pair in a context, with its pass and that of another pair as the last two.
theorem last_passes (pairs : List Pair) (hd : Distinct pairs) (p q : Pair) (hp : p ∈ pairs) (hq : q ∈ pairs)
    (hne : p.placeholder ≠ q.placeholder) (left right : Str) (hleft : NoHole left) (hright : NoHole right) :
    ∃ order : List Pair, order.Perm pairs ∧
      order.foldl (pass inserted) (left ++ p.placeholder.text ++ right) =
        replaceAll q.placeholder.text (inserted q) (left ++ inserted p ++ right) := by
  obtain ⟨before, after, rfl⟩ := List.append_of_mem hq
  obtain ⟨hpermq, hneq⟩ := hd.split before after q
  have hpo : p ∈ before ++ after := by
    rcases List.mem_append.mp (hpermq.mem_iff.mpr hp) with hm | hm
    · exact hm
    · obtain rfl := List.mem_singleton.mp hm
      exact absurd rfl hne
  have hothers : Distinct (before ++ after) := (List.pairwise_append.mp (hd.perm hpermq)).1
  obtain ⟨before', after', hsplit⟩ := List.append_of_mem hpo
  rw [hsplit] at hothers
  obtain ⟨hpermp, hnep⟩ := hothers.split before' after' p
  refine ⟨before' ++ after' ++ [p] ++ [q], ?_, ?_⟩
  · rw [← hsplit] at hpermp
    exact (hpermp.append_right [q]).trans hpermq
  · have hidle : (before' ++ after').foldl (pass inserted) (left ++ p.placeholder.text ++ right) =
        left ++ p.placeholder.text ++ right := by
      apply foldl_idle
      intro r hr
      exact not_infix_context left right p.placeholder r.placeholder (hnep r hr).symm hleft hright
    have hown : pass inserted (left ++ p.placeholder.text ++ right) p = left ++ inserted p ++ right := by
      have hsep : ∀ before after, left ++ (p.placeholder.text ++ right) = before ++ p.placeholder.text ++ after →
          left.length ≤ before.length := by
        intro before after h
        rw [← List.append_assoc] at h
        rcases p.placeholder.overlap p.placeholder left right before after h with hlen | hlen | ⟨rfl, -⟩
        · rw [List.append_assoc] at h
          exact absurd (infix_of_append_le _ left _ before after h hlen) (hleft p.placeholder)
        · omega
        · exact Nat.le_refl _
      rw [pass, List.append_assoc, replaceAll_append_of_late _ _ left _ hsep,
        replaceAll_old_append _ _ p.placeholder.text_ne_nil,
        replaceAll_of_not_infix _ _ right (hright p.placeholder), List.append_assoc]
    rw [List.foldl_append, List.foldl_append, hidle, List.foldl_cons, List.foldl_nil, List.foldl_cons,
      List.foldl_nil, hown]
    rfl

-- Whatever the order of the passes, they fill in the values: exactly when each puts in
-- its own value and no value gets in the way of another placeholder.
theorem passes_iff (pairs : List Pair) (hd : Distinct pairs) :
    (∀ order : List Pair, order.Perm pairs → ∀ s, order.foldl (pass inserted) s = fill (valueOf pairs) s) ↔
      (∀ p ∈ pairs, inserted p = p.value) ∧
        ∀ p ∈ pairs, ∀ q ∈ pairs, p.placeholder ≠ q.placeholder → Clear p q := by
  constructor
  · intro h
    have hown : ∀ p ∈ pairs, inserted p = p.value := by
      intro p hp
      obtain ⟨order, hperm, hlast⟩ := last_pass inserted pairs hd p hp
      have hfill := fill_hole (valueOf pairs) p.placeholder []
      rw [List.append_nil, valueOf_of_mem pairs hd p hp] at hfill
      rw [← hlast, h order hperm, hfill]
      exact List.append_nil p.value
    refine ⟨hown, ?_⟩
    intro p hp q hq hne
    by_contra hclear
    unfold Clear at hclear
    push Not at hclear
    obtain ⟨hvalue, hsep⟩ := hclear
    obtain ⟨left, right, hleft, hright, hin⟩ := exists_context p.value q.placeholder hsep
    obtain ⟨order, hperm, hlast⟩ := last_passes inserted pairs hd p q hp hq hne left right hleft hright
    rw [h order hperm, fill_first _ left p.placeholder right hleft, fill_noHole _ right hright,
      valueOf_of_mem pairs hd p hp, hown p hp, hown q hq] at hlast
    exact replaceAll_ne q.placeholder.text q.value q.placeholder.text_ne_nil hvalue _ hin hlast.symm
  · rintro ⟨hown, hclear⟩ order hperm s
    have hstart : fill (valueOf []) s = s := fill_placeholders (valueOf []) (fun p => rfl) s
    have hpairs : order.Pairwise fun p q => q ∈ order → Clear p q := by
      apply (hd.perm hperm).imp_of_mem
      intro p q hp hq hne _
      exact hclear p (hperm.mem_iff.mp hp) q (hperm.mem_iff.mp hq) hne
    have hall := foldl_fill inserted order [] (hd.perm hperm) (fun p hp => hown p (hperm.mem_iff.mp hp)) hpairs s
    rw [hstart, List.nil_append] at hall
    rw [hall]
    exact fill_congr _ _ (valueOf_perm pairs order hd hperm) s

end Characterization

end MesosPoc.Performance
