import ScenePack.Validation

/-!
# Rules in order

A check goes through rules one after another and answers with the first that is broken. A `Rule` is
what is asked and how breaking it is reported; `Decides rules answer` says that an answer is what
the rules come to, whatever the code that found it looks like.

Results:
* `FirstBroken.unique`: no list of rules has two first broken ones, and none if all hold.
* `decides_cons`, `decides_append`: a check that goes on after another decides the rules of both.
  The later check may rely on the earlier rules.
* `decides_eachObject`: `checkObjects` decides the rules of every object, in order.
* **`Decides.iff`**: an answer that decides rules is `ok` iff all hold, and an error iff it reports
  the first broken one.
-/

namespace ScenePack

/-- Something a description has to meet, and how breaking it is reported. -/
structure Rule where
  holds : Prop
  violation : Violation

namespace Rule

/-- Every rule holds. -/
def AllHold (rules : List Rule) : Prop := ∀ r ∈ rules, r.holds

/-- `v` reports the first rule that is broken. -/
inductive FirstBroken (v : Violation) : List Rule → Prop
  | here {r : Rule} {rest : List Rule} (hr : ¬ r.holds) (hv : r.violation = v) :
      FirstBroken v (r :: rest)
  | later {r : Rule} {rest : List Rule} (hr : r.holds) (h : FirstBroken v rest) :
      FirstBroken v (r :: rest)

/-- The answer is what going through the rules in order comes to. -/
inductive Decides (rules : List Rule) : Except Violation Unit → Prop
  | ok (h : AllHold rules) : Decides rules (.ok ())
  | error {v : Violation} (h : FirstBroken v rules) : Decides rules (.error v)

variable {r : Rule} {rules rest : List Rule} {v w : Violation} {x y : Except Violation Unit}

/-! ## The first broken rule -/

theorem allHold_nil : AllHold [] := fun _ h => absurd h List.not_mem_nil

theorem allHold_cons : AllHold (r :: rest) ↔ r.holds ∧ AllHold rest := List.forall_mem_cons

theorem allHold_append : AllHold (rules ++ rest) ↔ AllHold rules ∧ AllHold rest :=
  List.forall_mem_append

theorem FirstBroken.not_allHold (h : FirstBroken v rules) : ¬ AllHold rules := by
  induction h with
  | here hr _ => exact fun hall => hr (allHold_cons.mp hall).1
  | later _ _ ih => exact fun hall => ih (allHold_cons.mp hall).2

/-- There is at most one report. -/
theorem FirstBroken.unique (h : FirstBroken v rules) (h' : FirstBroken w rules) : v = w := by
  induction h with
  | here hr hv =>
    cases h' with
    | here _ hw => rw [← hv, hw]
    | later hr' _ => exact absurd hr' hr
  | later hr _ ih =>
    cases h' with
    | here hr' _ => exact absurd hr hr'
    | later _ h' => exact ih h'

theorem FirstBroken.append_left (h : FirstBroken v rules) : FirstBroken v (rules ++ rest) := by
  induction h with
  | here hr hv => exact .here hr hv
  | later hr _ ih => exact .later hr ih

theorem FirstBroken.append_right (hall : AllHold rules) (h : FirstBroken v rest) :
    FirstBroken v (rules ++ rest) := by
  induction rules with
  | nil => exact h
  | cons r rules ih =>
    obtain ⟨hr, hall⟩ := allHold_cons.mp hall
    exact .later hr (ih hall)

/-! ## Checks that decide rules -/

theorem decides_nil : Decides [] (.ok ()) := .ok allHold_nil

/-- A check goes on after another. -/
theorem decides_append (hx : Decides rules x) (hy : AllHold rules → Decides rest y) :
    Decides (rules ++ rest) (x >>= fun _ => y) := by
  cases hx with
  | error h => exact .error h.append_left
  | ok h =>
    cases hy h with
    | error h' => exact .error (.append_right h h')
    | ok h' => exact .ok (allHold_append.mpr ⟨h, h'⟩)

/-- A test decides its rule. -/
theorem decides_require {holds : Bool} (hr : holds = true ↔ r.holds) :
    Decides [r] (require holds r.violation) := by
  unfold require
  split
  · rename_i h
    exact .ok (allHold_cons.mpr ⟨hr.mp h, allHold_nil⟩)
  · rename_i h
    exact .error (.here (fun h' => h (hr.mpr h')) rfl)

/-- A check goes on after a test. -/
theorem decides_cons {holds : Bool} (hr : holds = true ↔ r.holds)
    (hy : r.holds → Decides rest y) :
    Decides (r :: rest) (require holds r.violation >>= fun _ => y) :=
  decides_append (decides_require hr) fun h => hy (h r List.mem_cons_self)

/-- A check goes on after another that is made only under a condition. -/
theorem decides_ite_append {c : Prop} [Decidable c] (hx : Decides rules x) (hy : Decides rest y) :
    Decides ((if c then rules else []) ++ rest) (if c then x >>= fun _ => y else y) := by
  by_cases hc : c
  · rw [if_pos hc, if_pos hc]
    exact decides_append hx fun _ => hy
  · rw [if_neg hc, if_neg hc]
    exact hy

/-- The rules of every object, in order; the first object is at `index`. -/
def eachObject (objects : List SceneObject) (index : Nat) (rules : Nat → SceneObject → List Rule) :
    List Rule :=
  (objects.zipIdx index).flatMap fun (o, k) => rules k o

/-- **A pass over the objects decides the rules of all of them.** -/
theorem decides_eachObject {check : Nat → SceneObject → Except Violation Unit}
    {rules : Nat → SceneObject → List Rule} (h : ∀ k o, Decides (rules k o) (check k o)) :
    ∀ (objects : List SceneObject) (index : Nat),
      Decides (eachObject objects index rules) (checkObjects check index objects)
  | [], _ => decides_nil
  | o :: objects, index => by
    show Decides (rules index o ++ eachObject objects (index + 1) rules) _
    exact decides_append (h index o) fun _ => decides_eachObject h objects (index + 1)

/-- **What deciding rules comes to.** -/
theorem Decides.iff (h : Decides rules x) :
    (x = .ok () ↔ AllHold rules) ∧ ∀ v, x = .error v ↔ FirstBroken v rules := by
  cases h with
  | ok h => exact ⟨⟨fun _ => h, fun _ => rfl⟩, fun v => ⟨nofun, fun hv => absurd h hv.not_allHold⟩⟩
  | error h =>
    refine ⟨⟨nofun, fun hall => absurd hall h.not_allHold⟩, fun v => ⟨?_, fun hv => ?_⟩⟩
    · rintro ⟨⟩
      exact h
    · rw [h.unique hv]

end Rule

end ScenePack
