import RulesText.Proofs.Regex.Isolation

/-!
# What the groups of a best match hold

What a named group captures in a best match is a best match of the group's own expression, and
the groups inside it hold what they hold in that match. This needs names that are used once and
named groups that take part at most once.

## Main definitions

* `Regex.Best`: the first of all ways that end at one place.
* `Regex.namedGroups`, `Regex.names`: the outermost named groups, and the names of all groups.
* `Regex.Holds`: what a match says about a group.

## Main statements

* `Regex.holds_of_best`: what a best match says about its groups.
-/

namespace RulesText

namespace Regex

/-! ## Names -/

/-- The names of all groups. -/
def names : Regex → List Text
  | group name? body => name?.toList ++ names body
  | seq a b | alt a b => names a ++ names b
  | repetition body _ _ _ => names body
  | _ => []

/-- The named groups that are not inside others, with their expressions. -/
def namedGroups : Regex → List (Text × Regex)
  | group (some name) body => [(name, body)]
  | group none body => namedGroups body
  | seq a b | alt a b => namedGroups a ++ namedGroups b
  | repetition body _ _ _ => namedGroups body
  | _ => []

/-- Whether no named group can take part twice. -/
def capturesOnce : Regex → Bool
  | group _ body => capturesOnce body
  | seq a b | alt a b => capturesOnce a && capturesOnce b
  | repetition body least most _ =>
    body.names.isEmpty || (least == 0 && most == some 1 && capturesOnce body)
  | _ => true

theorem names_of_mem_namedGroups {r body : Regex} {name : Text}
    (mem : (name, body) ∈ r.namedGroups) : name ∈ r.names ∧ body.names ⊆ r.names := by
  induction r with
  | group name? inner ih =>
    cases name? with
    | none => exact ih mem
    | some other =>
      obtain ⟨rfl, rfl⟩ := Prod.mk.inj (List.mem_singleton.1 mem)
      exact ⟨List.mem_cons_self, List.subset_cons_self _ _⟩
  | seq a b ih₁ ih₂ | alt a b ih₁ ih₂ =>
    rcases List.mem_append.1 mem with mem | mem
    · exact ⟨List.mem_append_left _ (ih₁ mem).1, fun _ h => List.mem_append_left _ ((ih₁ mem).2 h)⟩
    · exact ⟨List.mem_append_right _ (ih₂ mem).1,
        fun _ h => List.mem_append_right _ ((ih₂ mem).2 h)⟩
  | repetition inner least most greedy ih => exact ih mem
  | _ => cases mem

theorem isSteady_of_mem_namedGroups {r body : Regex} {name : Text} (steady : r.isSteady)
    (mem : (name, body) ∈ r.namedGroups) : body.isSteady := by
  induction r with
  | group name? inner ih =>
    cases name? with
    | none => exact ih steady mem
    | some other =>
      obtain ⟨rfl, rfl⟩ := Prod.mk.inj (List.mem_singleton.1 mem)
      exact steady
  | seq a b ih₁ ih₂ | alt a b ih₁ ih₂ =>
    simp only [isSteady, Bool.and_eq_true] at steady
    exact (List.mem_append.1 mem).elim (ih₁ steady.1) (ih₂ steady.2)
  | repetition inner least most greedy ih =>
    simp only [isSteady, Bool.and_eq_true] at steady
    exact ih steady.1 mem
  | _ => cases mem

theorem names_rename (f : Text → Text) (r : Regex) : (r.rename f).names = r.names.map f := by
  induction r with
  | group name? body ih => cases name? <;> simp [rename, names, ih]
  | seq a b ih₁ ih₂ | alt a b ih₁ ih₂ => simp [rename, names, ih₁, ih₂]
  | repetition body least most greedy ih => exact ih
  | _ => rfl

end Regex

/-! ## Groups on the way -/

namespace Ways

/-- The ways capture only groups of the given names. -/
def Captures (W : Ways) (names : List Text) : Prop :=
  ∀ m, ∀ n ∈ W m, ∀ p ∈ n.groups, p ∈ m.groups ∨ p.1 ∈ names

variable {W V : Ways} {names names' : List Text}

theorem Captures.mono (h : W.Captures names) (sub : names ⊆ names') : W.Captures names' :=
  fun m n mem p captured => (h m n mem p captured).imp_right (@sub _)

theorem captures_nothing : Captures (fun m => [m]) names := by
  intro m n mem p captured
  exact .inl (List.mem_singleton.1 mem ▸ captured)

theorem Captures.andThen (h : W.Captures names) (g : V.Captures names) :
    (W.andThen V).Captures names := by
  intro m n mem p captured
  obtain ⟨e, first, second⟩ := List.mem_flatMap.1 mem
  exact (g e n second p captured).elim (h m e first p) .inr

theorem Captures.times (h : W.Captures names) (n : Nat) : (W.times n).Captures names := by
  induction n with
  | zero => exact captures_nothing
  | succ n ih => exact h.andThen ih

theorem Captures.upTo (h : W.Captures names) (greedy : Bool) (n : Nat) :
    (W.upTo greedy n).Captures names := by
  induction n with
  | zero => exact captures_nothing
  | succ n ih =>
    intro m e mem
    rcases mem_arrange.1 mem with again | stop
    · exact h.andThen ih m e again
    · exact captures_nothing m e stop

theorem Captures.between (h : W.Captures names) (greedy : Bool) (least : Nat)
    (most : Option Nat) : (W.between greedy least most).Captures names := by
  cases most with
  | some most => exact (h.times least).andThen (h.upTo greedy _)
  | none => exact (h.times least).andThen fun m => h.upTo greedy _ m

end Ways

namespace Regex

theorem captures_ways (r : Regex) : r.ways.Captures r.names := by
  induction r with
  | empty => exact Ways.captures_nothing
  | one rule set =>
    intro m n mem p captured
    obtain ⟨x, stop, -, -, rfl⟩ := mem_ways_one.1 mem
    exact .inl captured
  | look condition =>
    intro m n mem p captured
    exact .inl ((mem_ways_look.1 mem).2 ▸ captured)
  | group name? body ih =>
    cases name? with
    | none => exact ih
    | some name =>
      intro m n mem p captured
      obtain ⟨e, inside, rfl⟩ := List.mem_map.1 mem
      rcases List.mem_cons.1 captured with rfl | captured
      · exact .inr List.mem_cons_self
      · exact (ih m e inside p captured).imp_right (List.mem_cons_of_mem _)
  | seq first second ih₁ ih₂ =>
    exact (ih₁.mono (List.subset_append_left ..)).andThen (ih₂.mono (List.subset_append_right ..))
  | alt preferred other ih₁ ih₂ =>
    intro m n mem
    rcases List.mem_append.1 mem with mem | mem
    · exact ih₁.mono (List.subset_append_left ..) m n mem
    · exact ih₂.mono (List.subset_append_right ..) m n mem
  | repetition body least most greedy ih => exact ih.between greedy least most

variable {r body : Regex} {c : Cursor} {m v w : Match} {name : Text}

/-- A match that begins without groups has no group of another name. -/
theorem group?_eq_none (mem : w ∈ r.ways { stop := c }) (other : name ∉ r.names) :
    w.group? name = none := by
  refine List.lookup_eq_none_iff.2 fun p captured => ?_
  rcases captures_ways r _ w mem p captured with none | known
  · cases none
  · exact bne_iff_ne.2 fun same => other (same ▸ known)

/-! ## Best matches of parts -/

theorem Best.exists_inside
    (best : (group (some name) body).Best { stop := c } w) :
    ∃ v, body.Best { stop := c } v ∧ w = v.capture name c := by
  rw [Best, ways, List.find?_map, Option.map_eq_some_iff] at best
  obtain ⟨v, first, rfl⟩ := best
  exact ⟨v, first, rfl⟩

theorem Best.alt {a b : Regex} (best : (alt a b).Best m w) : a.Best m w ∨ b.Best m w := by
  rw [Best, ways, List.find?_append, Option.or_eq_some_iff] at best
  exact best.imp_right And.right

theorem looked_of_best (steady : r.isSteady) (best : r.Best { stop := c } w) :
    w.looked = false :=
  (follows_ways steady).looked _ w best.mem

/-- If the first part were not at its best, the second part could follow a better one. -/
theorem Best.exists_parts {a b : Regex} (steady₁ : a.isSteady) (steady₂ : b.isSteady)
    (best : (seq a b).Best { stop := c } w) :
    ∃ v u, a.Best { stop := c } v ∧ b.Best { stop := v.stop } u ∧ w = u.onto v.groups := by
  rw [Best, ways, Ways.andThen, List.find?_flatMap, List.findSome?_eq_some_iff] at best
  obtain ⟨before, v, after, eq, found, none⟩ := best
  have step : b.Matches v.stop w.stop :=
    (follows_ways steady₂).stop_of_mem (List.mem_of_find?_eq_some found)
  have front : a.Best { stop := c } v := by
    refine List.find?_eq_some_iff_append.2 ⟨by simp, before, after, eq, fun x mem => ?_⟩
    have other : x.stop ≠ v.stop := by
      intro same
      obtain ⟨n, mem', stop⟩ := ((follows_ways steady₂).ends x w.stop).2 (same ▸ step)
      have := List.find?_eq_none.1 (none x mem) n mem'
      simp [stop] at this
    simpa using other
  have alone : v = ({ stop := v.stop } : Match).onto v.groups := by
    have looked := looked_of_best steady₁ front
    obtain ⟨stop, groups, looked'⟩ := v
    obtain rfl : looked' = false := looked
    rfl
  rw [alone, ways_onto, List.find?_map, Option.map_eq_some_iff] at found
  obtain ⟨u, first, rfl⟩ := found
  exact ⟨v, u, front, first, rfl⟩

theorem Best.optional {greedy : Bool}
    (best : (repetition body 0 (some 1) greedy).Best m w) : w = m ∨ body.Best m w := by
  have same : (repetition body 0 (some 1) greedy).ways m =
      Ways.arrange greedy (body.ways m) [m] := by
    change (Ways.andThen (fun m => [m]) (body.ways.upTo greedy 1)) m = _
    rw [Ways.nothing_andThen]
    exact congrArg (fun W : Ways => Ways.arrange greedy (W m) [m]) (Ways.andThen_nothing body.ways)
  rw [Best, same] at best
  cases greedy with
  | true =>
    rw [Ways.arrange, if_pos rfl, List.find?_append, Option.or_eq_some_iff] at best
    rcases best with again | ⟨-, stop⟩
    · exact .inr again
    · exact .inl (List.mem_singleton.1 (List.mem_of_find?_eq_some stop))
  | false =>
    rw [Ways.arrange, if_neg Bool.false_ne_true, List.find?_append, Option.or_eq_some_iff] at best
    rcases best with stop | ⟨-, again⟩
    · exact .inl (List.mem_singleton.1 (List.mem_of_find?_eq_some stop))
    · exact .inr again

/-- The best match of an expression with other names for its groups. -/
theorem Best.exists_renamed {f : Text → Text} (best : (r.rename f).Best { stop := c } w) :
    ∃ v, r.Best { stop := c } v ∧ w = v.regroup f [] := by
  have same := maps_ways f [] r { stop := c }
  rw [show ({ stop := c } : Match).regroup f [] = { stop := c } from rfl] at same
  rw [Best, same, List.find?_map, Option.map_eq_some_iff] at best
  obtain ⟨v, first, rfl⟩ := best
  exact ⟨v, first, rfl⟩

/-! ## What groups hold -/

/-- What a match from `c` to the end of `w` says about a named group: it took no part, or it holds
a best match of its expression, and the groups inside it hold what they hold there. -/
def Holds (c : Cursor) (w : Match) (name : Text) (body : Regex) : Prop :=
  w.group? name = none ∨ ∃ e v, c.Reaches e ∧ v.stop.Reaches w.stop ∧ body.Best { stop := e } v ∧
    w.group? name = some (e.spanTo v.stop) ∧ ∀ inner ∈ body.names, w.group? inner = v.group? inner

theorem Holds.unset (none : w.group? name = none) (body : Regex) : Holds c w name body :=
  .inl none

theorem namedGroups_eq_nil (none : r.names = []) : r.namedGroups = [] :=
  List.eq_nil_iff_forall_not_mem.2 fun ⟨name, body⟩ mem => by
    have := (names_of_mem_namedGroups mem).1
    rw [none] at this
    cases this

/-- A named group and the groups inside it have names of the expression. -/
theorem mem_names_of_namedGroups (mem : (name, body) ∈ r.namedGroups) :
    ∀ other, other = name ∨ other ∈ body.names → other ∈ r.names := by
  have known := names_of_mem_namedGroups mem
  rintro other (rfl | inside)
  · exact known.1
  · exact known.2 inside

/-- Groups of other names make no difference. -/
theorem Holds.congr (h : Holds c v name body) (reach : v.stop.Reaches w.stop)
    (same : ∀ other, other = name ∨ other ∈ body.names → w.group? other = v.group? other) :
    Holds c w name body := by
  rcases h with none | ⟨e, u, left, right, best, holds, inside⟩
  · exact .inl ((same name (.inl rfl)).trans none)
  · exact .inr ⟨e, u, left, right.trans reach, best, (same name (.inl rfl)).trans holds,
      fun other mem => (same other (.inr mem)).trans (inside other mem)⟩

theorem Holds.after {d : Cursor} (h : Holds d w name body) (reach : c.Reaches d) :
    Holds c w name body :=
  h.imp_right fun ⟨e, u, left, rest⟩ => ⟨e, u, reach.trans left, rest⟩

theorem group?_onto (u v : Match) (name : Text) :
    (u.onto v.groups).group? name = (u.group? name).or (v.group? name) :=
  List.lookup_append

theorem holds_of_best (steady : r.isSteady) (once : r.capturesOnce) (distinct : r.names.Nodup)
    (best : r.Best { stop := c } w) (mem : (name, body) ∈ r.namedGroups) :
    Holds c w name body := by
  induction r generalizing c w with
  | group name? inner ih =>
    cases name? with
    | none => exact ih steady once distinct best mem
    | some other =>
      obtain ⟨rfl, rfl⟩ := Prod.mk.inj (List.mem_singleton.1 mem)
      obtain ⟨v, inside, rfl⟩ := best.exists_inside
      refine .inr ⟨c, v, .refl c, .refl _, inside, ?_, fun other mem => ?_⟩
      · simp [Match.group?, Match.capture]
      · have ne : other ≠ name := fun same => (List.nodup_cons.1 distinct).1 (same ▸ mem)
        simp [Match.group?, Match.capture, List.lookup_cons, beq_false_of_ne ne]
  | seq a b ih₁ ih₂ =>
    simp only [isSteady, capturesOnce, Bool.and_eq_true] at steady once
    obtain ⟨distinct₁, distinct₂, apart⟩ := List.nodup_append.1 distinct
    obtain ⟨v, u, front, back, rfl⟩ := best.exists_parts steady.1 steady.2
    rcases List.mem_append.1 mem with mem | mem
    · refine (ih₁ steady.1 once.1 distinct₁ front mem).congr
        (matches_forward b _ _ (back.matches steady.2)) fun other inside => ?_
      have mine := mem_names_of_namedGroups mem other inside
      rw [group?_onto, group?_eq_none back.mem fun theirs => apart other mine other theirs rfl,
        Option.none_or]
    · have later := ih₂ steady.2 once.2 distinct₂ back mem
      have same : ∀ other, other = name ∨ other ∈ body.names →
          (u.onto v.groups).group? other = u.group? other := by
        intro other inside
        have mine := mem_names_of_namedGroups mem other inside
        rw [group?_onto, group?_eq_none front.mem fun theirs => apart other theirs other mine rfl,
          Option.or_none]
      exact (later.after (matches_forward a _ _ (front.matches steady.1))).congr (.refl _) same
  | alt a b ih₁ ih₂ =>
    simp only [isSteady, capturesOnce, Bool.and_eq_true] at steady once
    obtain ⟨distinct₁, distinct₂, apart⟩ := List.nodup_append.1 distinct
    rcases List.mem_append.1 mem with mem | mem
    · rcases best.alt with left | right
      · exact ih₁ steady.1 once.1 distinct₁ left mem
      · exact .unset (group?_eq_none right.mem fun theirs =>
          apart name (names_of_mem_namedGroups mem).1 name theirs rfl) body
    · rcases best.alt with left | right
      · exact .unset (group?_eq_none left.mem fun theirs =>
          apart name theirs name (names_of_mem_namedGroups mem).1 rfl) body
      · exact ih₂ steady.2 once.2 distinct₂ right mem
  | repetition inner least most greedy ih =>
    simp only [isSteady, capturesOnce, Bool.and_eq_true, Bool.or_eq_true, beq_iff_eq,
      List.isEmpty_iff] at steady once
    rcases once with none | ⟨⟨rfl, rfl⟩, once⟩
    · rw [namedGroups, namedGroups_eq_nil none] at mem
      cases mem
    · rcases best.optional with rfl | best
      · exact .unset rfl body
      · exact ih steady.1 once distinct best mem
  | _ => cases mem

end Regex

end RulesText
