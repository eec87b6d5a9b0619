import CanvasTransform.Codec.Basic
import CanvasTransform.Proofs.Json.Reading

set_option autoImplicit false

/-! # Values that are read back

A value is read back if its JSON can be written and is read as the value (`ReadsBack`). It is restored
then from its text as well (`ReadsBack.restored`).

Most types are written as records. What is read of a record for a field depends on the members of the
field's name only. So the members may come in any order and among members of other names, and any of
them may be missing (`Json.Keeps`): a field that was kept has its value, and any other is absent
(`Json.Keeps.slots?_eq`). A record that is written in full is the case in which all are kept. -/

namespace CanvasTransform

/-- What is written for the value has a text, and is read as the value. -/
structure ReadsBack {β : Type} [Codec β] (v : β) : Prop where
  writable : (toJson v).Writable
  reads : ofJson? (toJson v) = some v

attribute [simp] ReadsBack.writable ReadsBack.reads

/-- The texts that are written for the value, without blanks and over several lines, are read as the
    value. -/
def Restored {β : Type} [Codec β] (v : β) : Prop :=
  (Json.parse? (toJson v).compact).bind ofJson? = some v ∧
    (Json.parse? (toJson v).pretty).bind ofJson? = some v

/-- Whatever JSON can be written is read from its text, so all depends on the value. -/
theorem readsBack_iff {β : Type} [Codec β] {v : β} (h : (toJson v).Writable) :
    ReadsBack v ↔ Restored v := by
  rw [Restored, Json.parse?_compact h, Json.parse?_pretty h, Option.bind_some, and_self]
  exact ⟨ReadsBack.reads, fun hread => ⟨h, hread⟩⟩

theorem ReadsBack.restored {β : Type} [Codec β] {v : β} (h : ReadsBack v) : Restored v :=
  (readsBack_iff h.writable).1 h

namespace Json

section Slot

variable {β : Type} [Codec β] {v : β}

@[simp] theorem Slot.required?_value (h : ReadsBack v) : (value (toJson v)).required? = some v :=
  h.reads

@[simp] theorem Slot.withDefault?_value (h : ReadsBack v) (default : β) :
    (value (toJson v)).withDefault? default = some v := h.reads

/-- A field that is set does not look like one that is not, as long as `null` is no value. -/
@[simp] theorem Slot.optional?_value (h : ReadsBack v) (hnull : ofJson? Json.null = (none : Option β)) :
    (value (toJson v)).optional? = some (some v) := by
  have hread := h.reads
  generalize toJson v = j at hread ⊢
  cases j with
  | null => exact nomatch hnull.symm.trans hread
  | _ => rw [optional?, hread, Option.map_some]; exact nofun

end Slot

/-! ## Records -/

theorem writable_record {fields : List (String × Json)} (h : ∀ f ∈ fields, f.2.Writable) :
    (record fields).Writable :=
  .object (List.forall_mem_map.2 fun _ _ => rfl) (List.forall_mem_map.2 h)

/-- The members of an object keep some of the fields of a record, in any order, among members of other
    names. -/
def Keeps (fields : List (String × Json)) (kept : String → Bool)
    (members : List (Option String × Json)) : Prop :=
  ∃ others : List (String × Json), (∀ other ∈ others, other.1 ∉ fields.map (·.1)) ∧
    members.Perm ((fields.filter (kept ·.1) ++ others).map fun f => (some f.1, f.2))

/-- What a record has for a field that may have been kept. -/
def slot (kept : String → Bool) (field : String × Json) : Slot :=
  if kept field.1 then .value field.2 else .absent

/-- A field with a default takes it unless it was kept. -/
theorem withDefault?_slot {β : Type} [Codec β] {kept : String → Bool} {name : String} {j : Json}
    {v : β} (h : ofJson? j = some v) (default : β) :
    (slot kept (name, j)).withDefault? default = some (if kept name then v else default) := by
  rw [slot]
  split
  · exact h
  · rfl

theorem mapM_eq_some_map {β γ : Type} {f : β → Option γ} {g : β → γ} {bs : List β}
    (h : ∀ b ∈ bs, f b = some (g b)) : bs.mapM f = some (bs.map g) := by
  induction bs with
  | nil => rfl
  | cons b bs ih =>
      rw [List.mapM_cons, h b List.mem_cons_self, ih fun b hb => h b (List.mem_cons_of_mem _ hb)]
      rfl

theorem keeps_record (fields : List (String × Json)) :
    Keeps fields (fun _ => true) (fields.map fun f => (some f.1, f.2)) :=
  ⟨[], nofun, by simp⟩

variable {fields : List (String × Json)} {kept : String → Bool}
  {members : List (Option String × Json)} {field : String × Json}

/-- Of fields that have different names, one has the name of a field. -/
theorem filter_name (hnodup : (fields.map (·.1)).Nodup) (hfield : field ∈ fields) :
    fields.filter (·.1 == field.1) = [field] := by
  induction fields with
  | nil => exact absurd hfield List.not_mem_nil
  | cons f fields ih =>
      rw [List.map_cons, List.nodup_cons] at hnodup
      rcases List.mem_cons.1 hfield with rfl | hmem
      · rw [List.filter_cons_of_pos (by simp), List.filter_eq_nil_iff.2]
        intro f hf hname
        exact hnodup.1 (List.mem_map.2 ⟨f, hf, by simpa using hname⟩)
      · rw [List.filter_cons_of_neg, ih hnodup.2 hmem]
        intro hname
        exact hnodup.1 (List.mem_map.2 ⟨field, hmem, by simpa using (beq_iff_eq.1 hname).symm⟩)

namespace Keeps

theorem isSome (h : Keeps fields kept members) : ∀ m ∈ members, m.1.isSome = true := by
  obtain ⟨others, -, hperm⟩ := h
  intro m hm
  obtain ⟨f, -, rfl⟩ := List.mem_map.1 (hperm.mem_iff.1 hm)
  rfl

/-- The only member with the name of a field is the field, if it was kept. -/
theorem filter_members (h : Keeps fields kept members) (hnodup : (fields.map (·.1)).Nodup)
    (hfield : field ∈ fields) : members.filter (·.1 == some field.1) =
      if kept field.1 then [(some field.1, field.2)] else [] := by
  obtain ⟨others, hothers, hperm⟩ := h
  have hfields : (fields.filter (kept ·.1)).filter (·.1 == field.1) =
      if kept field.1 then [field] else [] := by
    rw [List.filter_comm, filter_name hnodup hfield]
    cases hkept : kept field.1 <;> simp [hkept]
  have hnone : others.filter (·.1 == field.1) = [] := by
    rw [List.filter_eq_nil_iff]
    intro other hother hname
    exact hothers other hother (beq_iff_eq.1 hname ▸ List.mem_map_of_mem hfield)
  have hname : ((fun m : Option String × Json => m.1 == some field.1) ∘
      fun f : String × Json => (some f.1, f.2)) = (·.1 == field.1) := by
    funext f
    simp
  have hmembers := hperm.filter (·.1 == some field.1)
  rw [List.filter_map, hname, List.filter_append, hfields, hnone, List.append_nil] at hmembers
  -- a permutation of at most one member is that member
  cases hkept : kept field.1 with
  | true =>
      rw [hkept, if_pos rfl, List.map_singleton, List.perm_singleton] at hmembers
      exact hmembers
  | false =>
      rw [hkept, if_neg Bool.false_ne_true, List.map_nil] at hmembers
      exact hmembers.eq_nil

/-- A field has its value if it was kept, and none if not. -/
theorem slotOf?_eq (h : Keeps fields kept members) (hnodup : (fields.map (·.1)).Nodup)
    (hfield : field ∈ fields) : slotOf? members field.1 = some (slot kept field) := by
  rw [Json.slotOf?, h.filter_members hnodup hfield, slot]
  cases kept field.1 <;> rfl

theorem slots?_eq (h : Keeps fields kept members) (hnodup : (fields.map (·.1)).Nodup) :
    (Json.object members).slots? (fields.map (·.1)) = some (fields.map (slot kept)) := by
  rw [slots?, if_pos (List.all_eq_true.2 h.isSome), List.mapM_map]
  exact mapM_eq_some_map fun field hfield => h.slotOf?_eq hnodup hfield

end Keeps

/-- A record that is written in full has all its fields. -/
theorem reads_record {β : Type} (fields : List (String × Json))
    (hnodup : (fields.map (·.1)).Nodup) (read : List Slot → Option β) {v : β}
    (h : read (fields.map fun f => .value f.2) = some v) :
    ((record fields).slots? (fields.map (·.1))).bind read = some v := by
  rw [record, (keeps_record fields).slots?_eq hnodup]
  exact h

end Json

/-! ## Basic types -/

theorem readsBack_bool (b : Bool) : ReadsBack b := ⟨.bool b, rfl⟩

/-- An integer has no point and no exponent, and its digits spell its magnitude. -/
theorem Numeral.ofInt_spec (n : Int) : (ofInt n).isInteger = true ∧
    (ofInt n).negative = decide (n < 0) ∧ ofDigits (ofInt n).whole = n.natAbs :=
  ⟨rfl, rfl, ofDigits_digitsOf _⟩

theorem readsBack_uint64 (n : UInt64) : ReadsBack n where
  writable := .number (Numeral.proper_ofInt n.toNat)
  reads := by
    obtain ⟨hinteger, hnegative, hdigits⟩ := Numeral.ofInt_spec n.toNat
    have hlt : n.toNat < 1 <<< 64 := n.toNat_lt
    simp only [toJson, ofJson?, hinteger, hnegative, hdigits, Int.natAbs_natCast, hlt,
      UInt64.ofNat_toNat]
    simp

theorem readsBack_int64 (n : Int64) : ReadsBack n where
  writable := .number (Numeral.proper_ofInt n.toInt)
  reads := by
    obtain ⟨hinteger, hnegative, hdigits⟩ := Numeral.ofInt_spec n.toInt
    have hlt : n.toInt < 2 ^ 63 := n.toInt_lt
    have hle : -2 ^ 63 ≤ n.toInt := n.le_toInt
    simp only [toJson, ofJson?, hinteger, hnegative, hdigits, Bool.not_true, Bool.false_eq_true,
      if_false, decide_eq_true_eq]
    by_cases hneg : n.toInt < 0
    · have hmagnitude : 0 < n.toInt.natAbs ∧ n.toInt.natAbs ≤ 1 <<< 63 := by omega
      have hvalue : -(n.toInt.natAbs : Int) = n.toInt := by omega
      rw [if_pos hneg, if_pos (by simpa using hmagnitude), hvalue, Int64.ofInt_toInt]
    · have hmagnitude : n.toInt.natAbs < 1 <<< 63 := by omega
      have hvalue : (n.toInt.natAbs : Int) = n.toInt := by omega
      rw [if_neg hneg, if_pos hmagnitude, hvalue, Int64.ofInt_toInt]

section

variable {β γ : Type} [Codec β] [Codec γ]

theorem readsBack_list {xs : List β} (h : ∀ x ∈ xs, ReadsBack x) : ReadsBack xs where
  writable := .array (List.forall_mem_map.2 fun x hx => (h x hx).writable)
  reads := by
    show (xs.map toJson).mapM ofJson? = some xs
    have hall : ∀ x ∈ xs, (ofJson? ∘ toJson) x = some (id x) := fun x hx => (h x hx).reads
    rw [List.mapM_map, Json.mapM_eq_some_map hall, List.map_id]

theorem readsBack_pair {p : β × γ} (h₁ : ReadsBack p.1) (h₂ : ReadsBack p.2) : ReadsBack p where
  writable := .array (by simp [h₁.writable, h₂.writable])
  reads := by
    show (do return (← ofJson? (toJson p.1), ← ofJson? (toJson p.2))) = some p
    rw [h₁.reads, h₂.reads]
    rfl

end

end CanvasTransform
