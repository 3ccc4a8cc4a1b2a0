import ScenePack.Proofs.Json.Numbers
import ScenePack.Proofs.Material.Authored

/-!
# The floats of a description

A description holds floats in its camera, its sky, its bloom settings, the overrides of its materials
and the geometries of its objects. Each of them is a number of the text, narrowed, or a default, so
none is a NaN. What has no NaN equals itself, part by part.

* `SceneDescription.floats` and its like for the parts: all floats there are.

Results:
* `Camera.ofFields_gives` and its like: of fields without NaNs a part without NaNs is read.
* **`SceneDescription.nanFree_of_parse`**: no float of a description is a NaN.
* **`SceneDescription.beq_self`**: a description without NaNs equals itself.
-/

namespace ScenePack

open Json (Value Fields Number)
open Outcome

/-! ## Floats -/

def Camera.floats (c : Camera) : List Single :=
  c.position.floats ++ c.rotation.floats ++ [c.fov, c.aperture, c.focusDist]

def Sky.floats (s : Sky) : List Single := s.colorTop.floats ++ s.colorBottom.floats

def Bloom.floats (b : Bloom) : List Single := [b.threshold, b.knee, b.intensity, b.downscale]

def RenderSettings.floats (r : RenderSettings) : List Single := r.bloom.floats

/-- What overrides write to the fields of a record, the word of the emission mode included. -/
def MaterialOverrides.floats (o : MaterialOverrides) : List Single :=
  MaterialField.all.flatMap fun f => ((f.written o).getD []).map Single.mk

def Geometry.floats (g : Geometry) : List Single :=
  g.center.floats ++ [g.radius] ++ g.normal.floats ++ [g.distance] ++ g.rotation.floats
    ++ g.size.floats ++ [g.height]

/-- Every float of a description. -/
def SceneDescription.floats (d : SceneDescription) : List Single :=
  d.camera.floats ++ d.sky.floats ++ d.render.floats ++ d.materials.flatMap (·.overrides.floats)
    ++ d.objects.flatMap (·.geometry.floats)

theorem MaterialOverrides.nanFree_floats_iff {o : MaterialOverrides} :
    NaNFree o.floats ↔ ∀ f ws, MaterialField.written o f = some ws → NaNFree (ws.map .mk) := by
  rw [floats, NaNFree.flatMap_iff]
  constructor
  · intro h f ws hws
    have hf := h f f.mem_all
    rwa [hws] at hf
  · intro h f _
    cases hws : f.written o with
    | none => exact fun _ hx => absurd hx List.not_mem_nil
    | some ws => exact h f ws hws

theorem Geometry.nanFree_floats_iff {g : Geometry} : NaNFree g.floats ↔
    NaNFree g.center.floats ∧ g.radius.isNaN = false ∧ NaNFree g.normal.floats ∧
      g.distance.isNaN = false ∧ NaNFree g.rotation.floats ∧ NaNFree g.size.floats ∧
      g.height.isNaN = false := by
  simp [floats]

theorem SceneDescription.nanFree_floats_iff {d : SceneDescription} : NaNFree d.floats ↔
    NaNFree d.camera.floats ∧ NaNFree d.sky.floats ∧ NaNFree d.render.floats ∧
      (∀ m ∈ d.materials, NaNFree m.overrides.floats) ∧
      ∀ o ∈ d.objects, NaNFree o.geometry.floats := by
  simp [floats]

/-! ## Reading fields -/

variable {α : Type} {fields root : Fields} {key : String} {v : Value}

namespace Field

theorem nanFree_vec3? (hv : v.AllNumbers Number.Ordered) {u : Vec3} (h : vec3? v = some u) :
    NaNFree u.floats := by
  unfold vec3? at h
  split at h
  · rename_i x y z rest
    obtain rfl := Option.some.inj h
    have hnumber (n : Number) (hn : .number n ∈ (.number x :: .number y :: .number z :: rest)) :
        n.toDouble.toSingle.isNaN = false := by
      cases hv with
      | array hitems =>
        cases hitems _ hn with
        | number hordered => exact Double.isNaN_toSingle hordered.toDouble
    exact Vec3.nanFree_floats_iff.mpr
      ⟨hnumber x (by simp), hnumber y (by simp), hnumber z (by simp)⟩
  · contradiction

theorem isNaN_single? (hv : v.AllNumbers Number.Ordered) {x : Single} (h : single? v = some x) :
    x.isNaN = false := by
  cases hv with
  | number hordered =>
    obtain rfl := Option.some.inj h
    exact hordered.isNaN_toSingle
  | _ => contradiction

theorem single_gives (v : Value) (hv : v.AllNumbers Number.Ordered) :
    (single v).Gives fun x => x.isNaN = false :=
  fun x hx => isNaN_single? hv (single?_of_ok v x hx)

theorem vec3_gives {fallback : Vec3} (hfallback : NaNFree fallback.floats) (v : Value)
    (hv : v.AllNumbers Number.Ordered) : (vec3 fallback v).Gives fun u => NaNFree u.floats := by
  intro u hu
  obtain ⟨u?, hu?, rfl⟩ := map_eq_ok_iff.mp hu
  obtain rfl := Except.ok.inj (sparseVec3_result.symm.trans hu?)
  cases h : vec3? v with
  | none => exact hfallback
  | some u => exact nanFree_vec3? hv h

/-- Whatever a value is read as that goes into no float. -/
theorem gives_true (read : Value → Reading α) (v : Value) (_ : v.AllNumbers Number.Ordered) :
    (read v).Gives fun _ => True :=
  fun _ _ => trivial

theorem lookup_gives {P : α → Prop} {absent : α} {read : Value → Reading α}
    (h : fields.AllNumbers Number.Ordered) (key : String) (habsent : P absent)
    (hread : ∀ v, v.AllNumbers Number.Ordered → (read v).Gives P) :
    (lookup fields key absent read).Gives P := by
  unfold lookup
  split
  · exact .pure habsent
  · rename_i v hv
    exact .mapError (hread v (h.get? hv))

end Field

open ScenePack.Field

/-- What a value authors has no NaN, be it a vector, a scalar or a mode. -/
theorem FieldKind.nanFree_authored? {kind : FieldKind} (hv : v.AllNumbers Number.Ordered)
    {ws : List UInt32} (h : kind.authored? v = some ws) : NaNFree (ws.map .mk) := by
  cases kind with
  | vector =>
    rw [authored?_vector] at h
    obtain ⟨u, hu, rfl⟩ := Option.map_eq_some_iff.mp h
    exact nanFree_vec3? hv hu
  | scalar =>
    rw [authored?_scalar] at h
    obtain ⟨x, hx, rfl⟩ := Option.map_eq_some_iff.mp h
    exact NaNFree.cons_iff.mpr ⟨isNaN_single? hv hx, .nil⟩
  | mode =>
    rw [authored?_mode] at h
    obtain ⟨word, hword, rfl⟩ := Option.map_eq_some_iff.mp h
    obtain ⟨mode, -, rfl⟩ := Option.map_eq_some_iff.mp hword
    cases mode <;> decide

/-! ## Sections -/

section Sections

variable (h : fields.AllNumbers Number.Ordered)

include h

theorem Camera.ofFields_gives : (Camera.ofFields fields).Gives fun c => NaNFree c.floats := by
  refine .bind (lookup_gives h _ (by decide) single_gives) fun aperture haperture => ?_
  refine .bind (lookup_gives h _ (by decide) single_gives) fun focusDist hfocusDist => ?_
  refine .bind (lookup_gives h _ (by decide) single_gives) fun fov hfov => ?_
  refine .bind (lookup_gives h _ (by decide) (vec3_gives (by decide))) fun position hposition => ?_
  refine .bind (lookup_gives h _ (by decide) (vec3_gives (by decide))) fun rotation hrotation => ?_
  exact .pure (by simp [floats, haperture, hfocusDist, hfov, hposition, hrotation])

theorem Sky.ofFields_gives : (Sky.ofFields fields).Gives fun s => NaNFree s.floats := by
  refine .bind (lookup_gives h _ (by decide) (vec3_gives (by decide))) fun bottom hbottom => ?_
  refine .bind (lookup_gives h _ (by decide) (vec3_gives (by decide))) fun top htop => ?_
  exact .pure (by simp [floats, hbottom, htop])

theorem Bloom.ofFields_gives : (Bloom.ofFields fields).Gives fun b => NaNFree b.floats := by
  refine .bind (lookup_gives h _ (by decide) single_gives) fun downscale hdownscale => ?_
  refine .bind (lookup_gives h _ trivial (gives_true _)) fun _ _ => ?_
  refine .bind (lookup_gives h _ (by decide) single_gives) fun intensity hintensity => ?_
  refine .bind (lookup_gives h _ trivial (gives_true _)) fun _ _ => ?_
  refine .bind (lookup_gives h _ (by decide) single_gives) fun knee hknee => ?_
  refine .bind (lookup_gives h _ (by decide) single_gives) fun threshold hthreshold => ?_
  exact .pure (by simp [floats, hdownscale, hintensity, hknee, hthreshold])

theorem Geometry.ofFields_gives : (Geometry.ofFields fields).Gives fun g => NaNFree g.floats := by
  refine .bind (lookup_gives h _ (by decide) (vec3_gives (by decide))) fun center hcenter => ?_
  refine .bind (lookup_gives h _ (by decide) single_gives) fun distance hdistance => ?_
  refine .bind (lookup_gives h _ (by decide) single_gives) fun height hheight => ?_
  refine .bind (lookup_gives h _ (by decide) (vec3_gives (by decide))) fun normal hnormal => ?_
  refine .bind (lookup_gives h _ (by decide) single_gives) fun radius hradius => ?_
  refine .bind (lookup_gives h _ (by decide) (vec3_gives (by decide))) fun rotation hrotation => ?_
  refine .bind (lookup_gives h _ (by decide) (vec3_gives (by decide))) fun size hsize => ?_
  exact .pure (by
    simp [floats, hcenter, hdistance, hheight, hnormal, hradius, hrotation, hsize])

theorem SceneObject.ofFields_gives :
    (SceneObject.ofFields fields).Gives fun o => NaNFree o.geometry.floats := by
  refine .bind (lookup_gives h _ trivial (gives_true _)) fun _ _ => ?_
  refine .bind (lookup_gives h _ trivial (gives_true _)) fun _ _ => ?_
  refine .bind (lookup_gives h _ trivial (gives_true _)) fun _ _ => ?_
  exact .bind (Geometry.ofFields_gives h) fun _ hgeometry => .pure hgeometry

theorem Material.ofFields_gives (fallback : Bool) :
    (Material.ofFields fallback fields).Gives fun m => NaNFree m.overrides.floats := by
  intro m hm
  refine MaterialOverrides.nanFree_floats_iff.mpr fun f ws hws => ?_
  rw [MaterialOverrides.written_of_ok (ofFields_of_ok hm).2 f, MaterialField.ofEntry?] at hws
  obtain ⟨v, hv, hws⟩ := Option.bind_eq_some_iff.mp hws
  exact FieldKind.nanFree_authored? (h.get? hv) hws

end Sections

namespace Bloom

/-- Items by position are found like fields by key. -/
theorem item_gives {P : α → Prop} {items : List Value} {absent : α} {read : Value → Reading α}
    (hitems : ∀ v ∈ items, v.AllNumbers Number.Ordered) (i : Nat) (habsent : P absent)
    (hread : ∀ v, v.AllNumbers Number.Ordered → (read v).Gives P) :
    (item items i absent read).Gives P := by
  unfold item
  split
  · exact .pure habsent
  · rename_i v hv
    exact .mapError (hread v (hitems v (List.mem_of_getElem? hv)))

theorem ofItems_gives {items : List Value} (hitems : ∀ v ∈ items, v.AllNumbers Number.Ordered) :
    (ofItems items).Gives fun b => NaNFree b.floats := by
  refine .bind (item_gives hitems _ trivial (gives_true _)) fun _ _ => ?_
  refine .bind (item_gives hitems _ (by decide) single_gives) fun threshold hthreshold => ?_
  refine .bind (item_gives hitems _ (by decide) single_gives) fun knee hknee => ?_
  refine .bind (item_gives hitems _ (by decide) single_gives) fun intensity hintensity => ?_
  refine .bind (item_gives hitems _ trivial (gives_true _)) fun _ _ => ?_
  refine .bind (item_gives hitems _ (by decide) single_gives) fun downscale hdownscale => ?_
  have hfloats : NaNFree [threshold, knee, intensity, downscale] := by
    simp [hthreshold, hknee, hintensity, hdownscale]
  by_cases hlength : 6 < items.length
  · simp only [if_pos hlength]
    exact .bind (.fail _) fun _ (_ : True) => .pure hfloats
  · simp only [if_neg hlength]
    exact .pure hfloats

theorem ofValue_gives (v : Value) (hv : v.AllNumbers Number.Ordered) :
    (ofValue v).Gives fun b => NaNFree b.floats := by
  cases hv with
  | object hfields => exact ofFields_gives hfields
  | array hitems => exact ofItems_gives hitems
  | _ => exact .fail _

end Bloom

theorem RenderSettings.ofFields_gives (h : fields.AllNumbers Number.Ordered) :
    (RenderSettings.ofFields fields).Gives fun r => NaNFree r.floats := by
  refine .bind (lookup_gives h _ (by decide) Bloom.ofValue_gives) fun bloom hbloom => ?_
  refine .bind (lookup_gives h _ trivial (gives_true _)) fun _ _ => ?_
  refine .bind (lookup_gives h _ trivial (gives_true _)) fun _ _ => ?_
  refine .bind (lookup_gives h _ trivial (gives_true _)) fun _ _ => ?_
  refine .bind (lookup_gives h _ trivial (gives_true _)) fun _ _ => ?_
  refine .bind (lookup_gives h _ trivial (gives_true _)) fun _ _ => ?_
  exact .pure hbloom

/-! ## Scenes -/

namespace SceneReading

variable {P : α → Prop} {read : Fields → Reading α}
  (hread : ∀ fields, fields.AllNumbers Number.Ordered → (read fields).Gives P)

include hread

theorem object_gives (path : List PathStep) (v : Value) (hv : v.AllNumbers Number.Ordered) :
    (object path read v).Gives P := by
  cases hv with
  | object hfields => exact .mapError (hread _ hfields)
  | _ => exact .fail _

theorem part_gives (hroot : root.AllNumbers Number.Ordered) {absent : α} (habsent : P absent) :
    (part root key absent read).Gives P := by
  unfold part
  split
  · exact .pure habsent
  · exact .pure habsent
  · rename_i v _ hv
    exact object_gives hread _ v (hroot.get? hv)

theorem entries_gives : ∀ (i : Nat) (vs : List Value), (∀ v ∈ vs, v.AllNumbers Number.Ordered) →
    (entries key read i vs).Gives fun as => ∀ a ∈ as, P a
  | _, [], _ => .pure fun _ h => absurd h List.not_mem_nil
  | i, v :: vs, hvs => by
    obtain ⟨hv, hrest⟩ := List.forall_mem_cons.mp hvs
    refine .bind (object_gives hread _ v hv) fun a ha => ?_
    refine .bind (entries_gives (i + 1) vs hrest) fun as has => ?_
    exact .pure (List.forall_mem_cons.mpr ⟨ha, has⟩)

omit hread in
theorem items_gives (hroot : root.AllNumbers Number.Ordered) :
    (items root key).Gives fun vs => ∀ v ∈ vs, v.AllNumbers Number.Ordered := by
  unfold items
  split
  · exact .pure fun _ h => absurd h List.not_mem_nil
  · exact .pure fun _ h => absurd h List.not_mem_nil
  · rename_i vs hvs
    cases hroot.get? hvs with
    | array hitems => exact .pure hitems
  · exact .fail _

end SceneReading

namespace SceneDescription

open SceneReading

variable {fallback : Bool} {text : String} {d : SceneDescription}

theorem ReadFrom.nanFree (h : d.ReadFrom fallback root) (hroot : root.AllNumbers Number.Ordered) :
    NaNFree d.floats := by
  obtain ⟨ms, hms, hmaterials⟩ := h.materials
  obtain ⟨os, hos, hobjects⟩ := h.objects
  have hcamera : NaNFree d.camera.floats :=
    part_gives (fun _ => Camera.ofFields_gives) hroot (by decide) _ h.camera
  have hsky : NaNFree d.sky.floats :=
    part_gives (fun _ => Sky.ofFields_gives) hroot (by decide) _ h.sky
  have hrender : NaNFree d.render.floats :=
    part_gives (fun _ => RenderSettings.ofFields_gives) hroot (by decide) _ h.render
  have hoverrides : ∀ m ∈ d.materials, NaNFree m.overrides.floats :=
    entries_gives (fun _ hfields => Material.ofFields_gives hfields fallback) 0 ms
      (items_gives hroot _ hms) _ hmaterials
  have hgeometries : ∀ o ∈ d.objects, NaNFree o.geometry.floats :=
    entries_gives (fun _ => SceneObject.ofFields_gives) 0 os (items_gives hroot _ hos) _ hobjects
  exact nanFree_floats_iff.mpr ⟨hcamera, hsky, hrender, hoverrides, hgeometries⟩

/-- **No float of a description is a NaN.** -/
theorem nanFree_of_parse (h : (parse fallback text).result = .ok d) : NaNFree d.floats := by
  obtain ⟨root, hroot, hread⟩ := parse_eq_ok_iff.mp h
  cases Json.parse_ordered hroot with
  | object hfields => exact hread.nanFree hfields

end SceneDescription

/-! ## Equality -/

theorem list_beq_self [BEq α] {as : List α} (h : ∀ a ∈ as, (a == a) = true) :
    (as == as) = true := by
  induction as with
  | nil => rfl
  | cons a as ih =>
    obtain ⟨ha, has⟩ := List.forall_mem_cons.mp h
    rw [List.cons_beq_cons, ha, ih has, Bool.and_self]

theorem option_beq_self [BEq α] {a? : Option α} (h : ∀ a, a? = some a → (a == a) = true) :
    (a? == a?) = true := by
  cases a? with
  | none => rfl
  | some a => exact h a rfl

theorem Camera.beq_self {c : Camera} (h : NaNFree c.floats) : (c == c) = true := by
  simp only [floats, NaNFree.append_iff, NaNFree.cons_iff] at h
  obtain ⟨⟨hposition, hrotation⟩, hfov, haperture, hfocusDist, -⟩ := h
  show (_ && (_ && (_ && (_ && _)))) = true
  simp only [Bool.and_eq_true, Vec3.beq_self_iff, Single.beq_self_iff]
  exact ⟨hposition, hrotation, hfov, haperture, hfocusDist⟩

theorem Sky.beq_self {s : Sky} (h : NaNFree s.floats) : (s == s) = true := by
  show (_ && _) = true
  simp only [Bool.and_eq_true, Vec3.beq_self_iff]
  exact NaNFree.append_iff.mp h

theorem Bloom.beq_self {b : Bloom} (h : NaNFree b.floats) : (b == b) = true := by
  simp only [floats, NaNFree.cons_iff] at h
  obtain ⟨hthreshold, hknee, hintensity, hdownscale, -⟩ := h
  show (_ && (_ && (_ && (_ && (_ && _))))) = true
  simp only [Bool.and_eq_true, Single.beq_self_iff, beq_self_eq_true]
  exact ⟨trivial, hthreshold, hknee, hintensity, trivial, hdownscale⟩

theorem RenderSettings.beq_self {r : RenderSettings} (h : NaNFree r.floats) :
    (r == r) = true := by
  show (_ && (_ && (_ && (_ && (_ && _))))) = true
  simp only [Bool.and_eq_true, beq_self_eq_true, true_and]
  exact Bloom.beq_self h

theorem Geometry.beq_self {g : Geometry} (h : NaNFree g.floats) : (g == g) = true := by
  show (_ && (_ && (_ && (_ && (_ && (_ && _)))))) = true
  simp only [Bool.and_eq_true, Vec3.beq_self_iff, Single.beq_self_iff]
  exact nanFree_floats_iff.mp h

theorem SceneObject.beq_self {o : SceneObject} (h : NaNFree o.geometry.floats) :
    (o == o) = true := by
  show (_ && (_ && (_ && _))) = true
  simp only [Bool.and_eq_true, beq_self_eq_true, true_and]
  exact Geometry.beq_self h

theorem MaterialOverrides.beq_self {o : MaterialOverrides} (h : NaNFree o.floats) :
    (o == o) = true := by
  have hwritten := nanFree_floats_iff.mp h
  have vector (f : MaterialField) {u? : Option Vec3} (hu : f.written o = u?.map (·.words)) :
      (u? == u?) = true := by
    refine option_beq_self fun u hsome => Vec3.beq_self_iff.mpr ?_
    rw [hsome] at hu
    exact hwritten f _ hu
  have scalar (f : MaterialField) {x? : Option Single} (hx : f.written o = x?.map ([·.bits])) :
      (x? == x?) = true := by
    refine option_beq_self fun x hsome => Single.beq_self_iff.mpr ?_
    rw [hsome] at hx
    exact (NaNFree.cons_iff.mp (hwritten f _ hx)).1
  show (_ && (_ && (_ && (_ && (_ && (_ && (_ && (_ && (_ && (_ && (_ && (_ && (_ && (_ && (_ &&
    (_ && _)))))))))))))))) = true
  simp only [Bool.and_eq_true]
  exact ⟨vector .albedo rfl, vector .emission rfl, scalar .emissionStrength rfl, beq_self_eq_true _,
    scalar .roughness rfl, scalar .metallic rfl, scalar .transmission rfl, scalar .ior rfl,
    vector .specularTint rfl, scalar .specular rfl, scalar .clearcoat rfl,
    scalar .clearcoatRoughness rfl, scalar .subsurface rfl, vector .absorption rfl,
    scalar .sheen rfl, scalar .subsurfaceRadius rfl, scalar .scatteringAnisotropy rfl⟩

theorem Material.beq_self {m : Material} (h : NaNFree m.overrides.floats) : (m == m) = true := by
  show (_ && (_ && _)) = true
  simp only [Bool.and_eq_true, beq_self_eq_true, true_and]
  exact MaterialOverrides.beq_self h

/-- **A description without NaNs equals itself.** -/
theorem SceneDescription.beq_self {d : SceneDescription} (h : NaNFree d.floats) :
    (d == d) = true := by
  obtain ⟨hcamera, hsky, hrender, hoverrides, hgeometries⟩ := nanFree_floats_iff.mp h
  have hinfo : (d.info == d.info) = true := by
    show (_ && (_ && _)) = true
    simp only [beq_self_eq_true, Bool.and_self]
  show (_ && (_ && (_ && (_ && (_ && _))))) = true
  simp only [Bool.and_eq_true]
  exact ⟨hinfo, Camera.beq_self hcamera, Sky.beq_self hsky, RenderSettings.beq_self hrender,
    list_beq_self fun m hm => Material.beq_self (hoverrides m hm),
    list_beq_self fun o ho => SceneObject.beq_self (hgeometries o ho)⟩

end ScenePack
