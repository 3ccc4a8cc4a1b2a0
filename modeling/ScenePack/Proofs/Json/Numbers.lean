import ScenePack.Json.Reader
import ScenePack.Proofs.Binary.Ordered

/-!
# The numbers of a JSON text

What is true of every number that a literal is read as is true of every number of the tree that a
text is read as: the reader of tokens takes values apart nowhere, it only puts them into lists and
objects. One such property is not to be a NaN, and that is what the literals have: powers of ten are
finite and not zero, and significands are only scaled by them.

* `Value.AllNumbers`, `Fields.AllNumbers`: every number of a tree has a property.
* `Number.Ordered`: not a NaN.

Results:
* `advance_allNumbers`, `read_allNumbers`: one token, and the tokens of a text.
* **`parse_allNumbers`**: a text has the numbers of its literals.
* `readNumber_gives`: what is true of whole numbers of 64 bits and of doubles is true of literals.
* `readNumber_ordered`, **`parse_ordered`**: no literal is a NaN, and so no number of a text is.
-/

namespace ScenePack.Json

/-! ## Trees -/

/-- Every number of a value has a property. -/
inductive Value.AllNumbers (p : Number → Prop) : Value → Prop
  | null : AllNumbers p .null
  | bool (b : Bool) : AllNumbers p (.bool b)
  | number {n : Number} (h : p n) : AllNumbers p (.number n)
  | string (s : String) : AllNumbers p (.string s)
  | array {items : List Value} (h : ∀ v ∈ items, AllNumbers p v) : AllNumbers p (.array items)
  | object {fields : List (String × Value)} (h : ∀ field ∈ fields, AllNumbers p field.2) :
      AllNumbers p (.object fields)

/-- Every number in the values of some fields has a property. -/
def Fields.AllNumbers (p : Number → Prop) (fields : Fields) : Prop :=
  ∀ field ∈ fields, field.2.AllNumbers p

variable {p : Number → Prop}

namespace Fields.AllNumbers

variable {fields : Fields} {key : String} {v : Value}

theorem nil : Fields.AllNumbers p [] := fun _ h => absurd h List.not_mem_nil

theorem get? (h : fields.AllNumbers p) (hv : fields.get? key = some v) : v.AllNumbers p := by
  obtain ⟨field, hfield, rfl⟩ := Option.map_eq_some_iff.mp hv
  exact h field (List.mem_of_find?_eq_some hfield)

theorem insert (h : fields.AllNumbers p) (hv : v.AllNumbers p) :
    (fields.insert key v).AllNumbers p := by
  induction fields with
  | nil => exact List.forall_mem_singleton.mpr hv
  | cons field fields ih =>
    obtain ⟨hfield, hrest⟩ := List.forall_mem_cons.mp h
    unfold Fields.insert
    split
    · exact List.forall_mem_cons.mpr ⟨hv, h⟩
    · split
      · exact List.forall_mem_cons.mpr ⟨hv, hrest⟩
      · exact List.forall_mem_cons.mpr ⟨hfield, ih hrest⟩

end Fields.AllNumbers

/-! ## Reading tokens -/

/-- If a token is a value, the numbers of the value have the property. -/
def Lexeme.AllNumbers (p : Number → Prop) : Lexeme → Prop
  | .plain (.ok v) => v.AllNumbers p
  | _ => True

/-- The numbers of what an open list or object holds so far have the property. -/
def Frame.AllNumbers (p : Number → Prop) : Frame → Prop
  | .list before => ∀ v ∈ before, v.AllNumbers p
  | .object before _ => before.AllNumbers p

/-- The numbers of what was read before the place have the property. -/
def Expecting.AllNumbers (p : Number → Prop) : Expecting → Prop
  | .value | .firstItem | .firstKey => True
  | .nextItem before => ∀ v ∈ before, v.AllNumbers p
  | .nextKey before | .colon before _ => before.AllNumbers p
  | .behind v => v.AllNumbers p

section Step

variable {expecting next : Expecting} {stack above : List Frame} {frame : Frame} {t : Token}
  {before : Fields} {v : Value}

theorem exists_of_map_eq_ok {ε α β : Type} {f : α → β} {x : Except ε α} {b : β}
    (h : x.map f = .ok b) : ∃ a, x = .ok a ∧ f a = b := by
  cases x with
  | ok a => exact ⟨a, rfl, Except.ok.inj h⟩
  | error e => exact absurd h nofun

theorem exists_of_map_pair_eq_ok {x : Except Fault Expecting}
    (h : x.map (·, stack) = .ok (next, above)) : x = .ok next ∧ above = stack := by
  obtain ⟨e, he, heq⟩ := exists_of_map_eq_ok h
  obtain ⟨rfl, rfl⟩ := Prod.mk.inj heq
  exact ⟨he, rfl⟩

theorem begin_allNumbers (ht : t.lexeme.AllNumbers p) (h : begin stack t = .ok next) :
    next.AllNumbers p := by
  unfold begin at h
  split at h
  · split at h
    · obtain rfl := Except.ok.inj h
      trivial
    · contradiction
  · split at h
    · obtain rfl := Except.ok.inj h
      trivial
    · contradiction
  · obtain ⟨s, -, rfl⟩ := exists_of_map_eq_ok h
    exact .string s
  · rename_i hplain
    obtain ⟨v, rfl, rfl⟩ := exists_of_map_eq_ok h
    rw [hplain] at ht
    exact ht
  · contradiction

theorem keyed_allNumbers (hbefore : before.AllNumbers p) (h : keyed before t = .ok next) :
    next.AllNumbers p := by
  unfold keyed at h
  split at h
  · obtain ⟨s, -, rfl⟩ := exists_of_map_eq_ok h
    exact hbefore
  · contradiction

theorem attach_allNumbers (hframe : frame.AllNumbers p) (hv : v.AllNumbers p)
    (h : attach frame v t = .ok next) : next.AllNumbers p := by
  unfold attach at h
  split at h
  · obtain rfl := Except.ok.inj h
    exact List.forall_mem_cons.mpr ⟨hv, hframe⟩
  · obtain rfl := Except.ok.inj h
    refine .array fun u hu => ?_
    exact List.forall_mem_cons.mpr ⟨hv, hframe⟩ u (List.mem_reverse.mp hu)
  · contradiction
  · obtain rfl := Except.ok.inj h
    exact Fields.AllNumbers.insert hframe hv
  · obtain rfl := Except.ok.inj h
    exact .object (Fields.AllNumbers.insert hframe hv)
  · contradiction

/-- **One token puts values together and takes none apart.** -/
theorem advance_allNumbers (hexpecting : expecting.AllNumbers p)
    (hstack : ∀ frame ∈ stack, frame.AllNumbers p) (ht : t.lexeme.AllNumbers p)
    (h : advance expecting stack t = .ok (next, above)) :
    next.AllNumbers p ∧ ∀ frame ∈ above, frame.AllNumbers p := by
  have hlist {items : List Value} (hitems : ∀ v ∈ items, v.AllNumbers p) :
      ∀ frame ∈ Frame.list items :: stack, frame.AllNumbers p :=
    List.forall_mem_cons.mpr ⟨hitems, hstack⟩
  have hnone : ∀ v ∈ ([] : List Value), v.AllNumbers p := fun _ h => absurd h List.not_mem_nil
  unfold advance at h
  -- The cases are the rows of `advance`: what comes next is, in turn, a value, a first item, a next
  -- item, a first key, a next key, a colon, and whatever follows a value.
  split at h
  · obtain ⟨he, rfl⟩ := exists_of_map_pair_eq_ok h
    exact ⟨begin_allNumbers ht he, hstack⟩
  · obtain ⟨rfl, rfl⟩ := Prod.mk.inj (Except.ok.inj h)
    exact ⟨.array hnone, hstack⟩
  · obtain ⟨he, rfl⟩ := exists_of_map_pair_eq_ok h
    exact ⟨begin_allNumbers ht he, hlist hnone⟩
  · contradiction
  · obtain ⟨he, rfl⟩ := exists_of_map_pair_eq_ok h
    exact ⟨begin_allNumbers ht he, hlist hexpecting⟩
  · obtain ⟨rfl, rfl⟩ := Prod.mk.inj (Except.ok.inj h)
    exact ⟨.object Fields.AllNumbers.nil, hstack⟩
  · obtain ⟨he, rfl⟩ := exists_of_map_pair_eq_ok h
    exact ⟨keyed_allNumbers Fields.AllNumbers.nil he, hstack⟩
  · contradiction
  · obtain ⟨he, rfl⟩ := exists_of_map_pair_eq_ok h
    exact ⟨keyed_allNumbers hexpecting he, hstack⟩
  · obtain ⟨rfl, rfl⟩ := Prod.mk.inj (Except.ok.inj h)
    exact ⟨trivial, List.forall_mem_cons.mpr ⟨hexpecting, hstack⟩⟩
  · contradiction
  · split at h
    · contradiction
    · obtain ⟨hframe, hbelow⟩ := List.forall_mem_cons.mp hstack
      obtain ⟨he, rfl⟩ := exists_of_map_pair_eq_ok h
      exact ⟨attach_allNumbers hframe hexpecting he, hbelow⟩

/-- A text that may end has read its value. -/
theorem conclude_allNumbers {offset : Nat} (hexpecting : expecting.AllNumbers p)
    (h : conclude expecting stack offset = .ok v) : v.AllNumbers p := by
  unfold conclude at h
  split at h
  · obtain rfl := Except.ok.inj h
    exact hexpecting
  all_goals contradiction

end Step

/-- **The tokens of a text** give the value that is read its numbers. -/
theorem read_allNumbers {length : Nat} {v : Value} : ∀ {ts : List Token} {expecting : Expecting}
    {stack : List Frame}, expecting.AllNumbers p → (∀ frame ∈ stack, frame.AllNumbers p) →
    (∀ t ∈ ts, t.lexeme.AllNumbers p) → read length expecting stack ts = .ok v → v.AllNumbers p
  | [], _, _, hexpecting, _, _, h => conclude_allNumbers hexpecting h
  | t :: ts, expecting, stack, hexpecting, hstack, hts, h => by
    obtain ⟨ht, hrest⟩ := List.forall_mem_cons.mp hts
    unfold read at h
    cases hadvance : advance expecting stack t with
    | error fault =>
      rw [hadvance] at h
      contradiction
    | ok after =>
      rw [hadvance] at h
      obtain ⟨hnext, habove⟩ := advance_allNumbers hexpecting hstack ht hadvance
      exact read_allNumbers hnext habove hrest h

/-! ## Scanning -/

section Scan

variable {offset : Nat} {c : Char} {rest : List Char}

/-- If a token stands at a place of a text, its numbers have the property. -/
def Token.Step.AllNumbers (p : Number → Prop) : Token.Step → Prop
  | .space => True
  | .token lexeme _ _ | .faulty lexeme => lexeme.AllNumbers p

theorem wordStep_allNumbers {letters : List Char} {v : Value} (hv : v.AllNumbers p) :
    (Token.wordStep offset letters v rest).AllNumbers p := by
  unfold Token.wordStep
  split
  · exact hv
  · trivial

theorem stringStep_allNumbers : (Token.stringStep offset rest).AllNumbers p := by
  unfold Token.stringStep
  split <;> trivial

theorem numberStep_allNumbers {read : Except Fault (Extent Number)}
    (hread : ∀ e, read = .ok e → p e.value) : (Token.numberStep read).AllNumbers p := by
  unfold Token.numberStep
  split
  · exact .number (hread _ rfl)
  · trivial

variable (hp : ∀ negative taken offset cs e,
  readNumber negative taken offset cs = .ok e → p e.value)

include hp

theorem step_allNumbers : (Token.step offset c rest).AllNumbers p := by
  unfold Token.step
  split
  · trivial
  · split
    · exact numberStep_allNumbers fun e => hp _ _ _ _ e
    · split
      all_goals first
        | trivial
        | exact stringStep_allNumbers
        | exact numberStep_allNumbers fun e => hp _ _ _ _ e
        | exact wordStep_allNumbers (.bool _)
        | exact wordStep_allNumbers .null

theorem scan_allNumbers : ∀ (skip offset : Nat) (cs : List Char),
    ∀ t ∈ Token.scan skip offset cs, t.lexeme.AllNumbers p
  | _, _, [] => fun _ h => absurd h (by simp [Token.scan])
  | skip + 1, offset, _ :: rest => by
    rw [Token.scan]
    exact scan_allNumbers skip offset rest
  | 0, offset, c :: rest => by
    have hstep : (Token.step offset c rest).AllNumbers p := step_allNumbers hp
    rw [Token.scan]
    split
    · exact scan_allNumbers 0 (offset + 1) rest
    · rename_i lexeme taken next heq
      rw [heq] at hstep
      exact List.forall_mem_cons.mpr ⟨hstep, scan_allNumbers taken next rest⟩
    · rename_i lexeme heq
      rw [heq] at hstep
      exact List.forall_mem_singleton.mpr hstep

/-- **A text has the numbers of its literals.** -/
theorem parse_allNumbers {text : List Char} {v : Value} (h : parse text = .ok v) :
    v.AllNumbers p := by
  have hstart : Expecting.value.AllNumbers p := trivial
  exact read_allNumbers hstart (fun _ h => absurd h List.not_mem_nil)
    (scan_allNumbers hp 0 0 text) h

end Scan

/-! ## Numbers that are no NaNs -/

/-- Not a NaN. -/
def Number.Ordered : Number → Prop
  | .integer _ => True
  | .real x => x.Ordered

namespace Number.Ordered

variable {n : Number}

theorem toDouble (h : n.Ordered) : n.toDouble.Ordered := by
  cases n with
  | integer n => exact Double.ordered_ofInt n
  | real x => exact h

theorem isNaN_toSingle (h : n.Ordered) : n.toSingle.isNaN = false := by
  cases n with
  | integer n => exact Single.isNaN_ofInt n
  | real x => exact Double.isNaN_toSingle h

end Number.Ordered

section Literal

open BinaryFormat

/-- A power of ten that is a double, before it is rounded. -/
theorem number_powerOfTen {n : Nat} (hn : n ≤ greatestPower) :
    (powerOfTen n).number = double.ofFraction false (10 ^ n * double.one) 1 := by
  have hexponent : ¬ (n : Int) > double.unitExponent := by
    have h : greatestPower ≤ double.unitExponent := by decide
    omega
  have hlow : ¬ (n : Int) < -(double.unitExponent + (1 : Nat).log2 + 2 : Int) := by omega
  have hdecimal : double.ofDecimal false 1 n =
      double.ofFraction false (10 ^ n * double.one) 1 := by
    rw [ofDecimal, if_neg Nat.one_ne_zero, if_neg hexponent, if_neg hlow,
      if_pos (Int.natCast_nonneg n), Int.toNat_natCast, Nat.pow_eq, Nat.one_mul]
  rw [powerOfTen, Double.ofDecimal, hdecimal,
    Double.number_ofNumber_of_ordered (ordered_ofFraction _ _ _)]

/-- **Powers of ten that are doubles are finite and not zero.** -/
theorem isScale_powerOfTen {n : Nat} (hn : n ≤ greatestPower) :
    double.IsScale (powerOfTen n).number := by
  have hgreatest : 10 ^ n * double.one ≤ 10 ^ greatestPower * double.one :=
    Nat.mul_le_mul_right _ (Nat.pow_le_pow_right (by decide) hn)
  rw [number_powerOfTen hn]
  constructor
  · have hunits : double.units 1 * 1 ≤ 10 ^ n * double.one :=
      Nat.mul_pos (Nat.pow_pos (by decide)) double.one_pos
    exact le_round_of_units_le (by decide) Nat.one_pos (by decide) hunits
  · have hround : double.round (10 ^ n * double.one) 1 ≤ double.infinity - 1 := by
      refine round_le_of_le_units (by decide) Nat.one_pos (hgreatest.trans ?_)
      decide +kernel
    have hpos : 0 < double.infinity := by decide
    exact Nat.lt_of_le_of_lt hround (by omega)

theorem ordered_shiftDown {x : Double} (hx : x.Ordered) (places : Nat) :
    (shiftDown x places).Ordered := by
  unfold shiftDown
  split
  · rename_i hplaces
    exact hx.div_scale (isScale_powerOfTen hplaces)
  · split
    · rename_i hplaces
      exact (hx.div_scale (isScale_powerOfTen (Nat.le_refl _))).div_scale
        (isScale_powerOfTen (by omega))
    · exact Double.ordered_ofInt 0

theorem ordered_scale? {significand : Nat} {exponent : Int} {x : Double}
    (h : scale? significand exponent = some x) : x.Ordered := by
  have hsignificand : (Double.ofInt significand).Ordered := Double.ordered_ofInt _
  unfold scale? at h
  dsimp only at h
  split at h
  · obtain rfl := Option.some.inj h
    exact ordered_shiftDown hsignificand _
  · split at h
    · rename_i hpower
      split at h
      · cases h
      · obtain rfl := Option.some.inj h
        exact hsignificand.mul_scale (isScale_powerOfTen hpower)
    · split at h
      · obtain rfl := Option.some.inj h
        exact hsignificand
      · cases h

theorem ordered_signed (negative : Bool) {x : Double} (h : x.Ordered) :
    (signed negative x).Ordered := by
  cases negative with
  | false => exact h
  | true => exact h.neg

variable {negative : Bool} {significand : Nat} {exponent : Int} {taken offset : Nat}
  {cs : List Char} {e : Extent Number}

theorem ordered_wholeNumber (negative : Bool) (significand : Nat) :
    (wholeNumber negative significand).Ordered := by
  unfold wholeNumber
  split
  · split
    · trivial
    · exact ordered_signed true (Double.ordered_ofInt _)
  · trivial

theorem gather_lt {significand : Nat} (h : significand < UInt64.size) :
    ∀ cs : List Char, (gather significand cs).1 < UInt64.size
  | [] => h
  | c :: cs => by
    unfold gather
    dsimp only
    split
    · rename_i hlonger
      exact gather_lt hlonger cs
    · exact h

section Read

variable (hwhole : ∀ negative significand, significand < UInt64.size →
    p (wholeNumber negative significand))
  (hreal : ∀ negative x, x.Ordered → p (signed negative x))

include hreal

theorem finishReal_gives (h : finishReal negative significand exponent taken offset = .ok e) :
    p e.value := by
  unfold finishReal at h
  split at h
  · rename_i x hx
    obtain rfl := Except.ok.inj h
    exact hreal negative x (ordered_scale? hx)
  · contradiction

theorem readExponent_gives
    (h : readExponent negative significand exponent taken offset cs = .ok e) : p e.value := by
  unfold readExponent at h
  dsimp only at h
  generalize (if cs.head? = some '+' ∨ cs.head? = some '-' then 1 else 0) = signs at h
  split at h
  · split at h <;> contradiction
  · split at h
    · exact finishReal_gives hreal h
    · split at h
      · contradiction
      · obtain rfl := Except.ok.inj h
        exact hreal negative _ (Double.ordered_ofInt 0)

theorem readFraction_gives
    (h : readFraction negative significand exponent taken offset cs = .ok e) : p e.value := by
  unfold readFraction at h
  dsimp only at h
  split at h
  · split at h <;> contradiction
  · split at h
    · exact readExponent_gives hreal h
    · exact finishReal_gives hreal h

include hwhole

/-- **A literal is read as a whole number of 64 bits or as a double**, with its sign. -/
theorem readNumber_gives (h : readNumber negative taken offset cs = .ok e) : p e.value := by
  unfold readNumber at h
  dsimp only at h
  split at h
  · split at h <;> contradiction
  · split at h
    · contradiction
    · split at h
      · exact readFraction_gives hreal h
      · split at h
        · exact readExponent_gives hreal h
        · split at h
          · obtain rfl := Except.ok.inj h
            exact hwhole negative _ (gather_lt (by decide) _)
          · exact finishReal_gives hreal h

end Read

/-- **No literal is read as a NaN.** -/
theorem readNumber_ordered (h : readNumber negative taken offset cs = .ok e) :
    e.value.Ordered :=
  readNumber_gives (fun negative s _ => ordered_wholeNumber negative s)
    (fun negative _ hx => ordered_signed negative hx) h

/-- **No number of a text is a NaN.** -/
theorem parse_ordered {text : List Char} {v : Value} (h : parse text = .ok v) :
    v.AllNumbers Number.Ordered :=
  parse_allNumbers (fun _ _ _ _ _ => readNumber_ordered) h

end Literal

end ScenePack.Json
