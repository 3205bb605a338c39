import Ccmqsrv.OutcomeFidelity
import Mathlib.Data.List.Forall2

/-!
# The conversion of an argument vector

`get_tuple` walks the parameters of a function along a vector whose length and
content come from a message.  A container parameter either gets the value of
its argument or makes the conversion throw.  A scalar parameter whose argument
has another type keeps the value it was initialised with, and nothing compares
the two lengths.
-/

namespace Ccmqsrv

open Foundations

/-- The value of the double is this integer. -/
def IsInteger (value : Double) (number : Int) : Prop :=
  value.isFinite = true ∧
    (if value.negative then -(value.magnitude : Int) else value.magnitude) =
      number * 2 ^ 1074

/-- The component has the value of the argument.  An integer may have been
widened to a double. -/
def Denotes : (type : ParamType) → Any → type.denote → Prop
  | .int, data, component => data = .int component
  | .double, data, component =>
      data = .double component ∨
        ∃ number : Int32, data = .int number ∧ IsInteger component number.toInt
  | .string, data, component => data = .string component
  | .bool, data, component => data = .bool component
  | .null, data, _ => data = .null
  | .vec valueType, data, component =>
      ∃ values, data = .vec values ∧ List.Forall₂ (Denotes valueType) values component
  | .map mappedType, data, component =>
      ∃ entries, data = .map entries ∧
        List.Forall₂ (fun entry member =>
            entry.1 = member.1 ∧ Denotes mappedType entry.2 member.2)
          entries (OrderedMap.entries component)

/-- Every component of the tuple has the value of its argument. -/
def TupleDenotes : (params : List ParamType) → List Any → Tuple params → Prop
  | [], data, _ => data = []
  | _ :: _, [], _ => False
  | type :: rest, value :: others, args =>
      Denotes type value args.1 ∧ TupleDenotes rest others args.2

/-- The argument of a container parameter has another shape, or one of its
elements has another type. -/
def Refuses : ParamType → Any → Prop
  | .vec valueType, data =>
      ∀ values, data = .vec values → ∃ value ∈ values, valueType.stored value = none
  | .map mappedType, data =>
      ∀ entries, data = .map entries → ∃ entry ∈ entries, mappedType.stored entry.2 = none
  | _, _ => False

/-- The argument of a scalar parameter has the type of the parameter, or it is
the integer zero and the parameter a `double`. -/
def Keeps : ParamType → Any → Prop
  | .vec _, _ => True
  | .map _, _ => True
  | .double, data => (∃ component, data = .double component) ∨ data = .int 0
  | type, data => (type.stored data).isSome = true

/-- A value that `_parse_json_element` returns. -/
def Loadable (value : Any) : Prop :=
  ∃ document, parseJsonElement document = value

/-- The conversion along the rest of the vector. -/
def convertAll : (params : List ParamType) → List Any → Cpp (Tuple params)
  | [], _ => .ok ()
  | _ :: _, [] => .error .undefined
  | type :: rest, value :: others => do
      let component ← getv type value type.initial
      let components ← convertAll rest others
      return (component, components)

theorem getComponents_eq_convertAll :
    ∀ (params : List ParamType) (before data : List Any),
      getComponents (before ++ data) params before.length = convertAll params data
  | [], _, _ => rfl
  | type :: rest, before, [] => by
      have missing : subscript (before ++ []) before.length = .error .undefined := by
        unfold subscript
        rw [List.append_nil, List.getElem?_eq_none (Nat.le_refl _)]
      unfold getComponents
      rw [missing]
      rfl
  | type :: rest, before, value :: others => by
      have found : subscript (before ++ value :: others) before.length = .ok value := by
        apply subscript_eq_ok.mpr
        rw [List.getElem?_append_right (Nat.le_refl _), Nat.sub_self]
        rfl
      have tail := getComponents_eq_convertAll rest (before ++ [value]) others
      rw [List.append_assoc, List.singleton_append, List.length_append,
        List.length_singleton] at tail
      unfold getComponents convertAll
      rw [found, ok_bind, tail]

theorem getTuple_eq_convertAll (params : List ParamType) (data : List Any) :
    getTuple params data = convertAll params data :=
  getComponents_eq_convertAll params [] data

section MapM

variable {α β : Type} {read : α → Cpp β} {stored : α → Option β}

private theorem mapM_of_forall
    (reads : ∀ value, read value = (stored value).elim (throwing .badAnyCast) .ok) :
    ∀ {values : List α}, (∀ value ∈ values, stored value ≠ none) →
      ∃ results, values.mapM read = .ok results ∧
        List.Forall₂ (fun value result => stored value = some result) values results
  | [], _ => ⟨[], rfl, List.Forall₂.nil⟩
  | value :: rest, readable => by
      obtain ⟨result, found⟩ := Option.ne_none_iff_exists'.mp (readable value List.mem_cons_self)
      obtain ⟨results, mapped, matched⟩ := mapM_of_forall reads
        fun later member => readable later (List.mem_cons_of_mem _ member)
      refine ⟨result :: results, ?_, List.Forall₂.cons found matched⟩
      rw [List.mapM_cons, reads, found, mapped]
      rfl

private theorem mapM_of_exists
    (reads : ∀ value, read value = (stored value).elim (throwing .badAnyCast) .ok) :
    ∀ {values : List α}, (∃ value ∈ values, stored value = none) →
      values.mapM read = throwing .badAnyCast
  | [], unreadable => by
      obtain ⟨_, member, _⟩ := unreadable
      cases member
  | value :: rest, unreadable => by
      rw [List.mapM_cons, reads]
      cases found : stored value with
      | none => rfl
      | some result =>
          have later : ∃ other ∈ rest, stored other = none := by
            obtain ⟨other, member, missing⟩ := unreadable
            rcases List.mem_cons.mp member with rfl | inRest
            · rw [found] at missing
              cases missing
            · exact ⟨other, inRest, missing⟩
          rw [mapM_of_exists reads later]
          rfl

end MapM

private theorem anyCast_eq_elim {α : Type} (read : Any → Option α) (value : Any) :
    anyCast read value = (read value).elim (throwing .badAnyCast) .ok := by
  unfold anyCast
  cases read value <;> rfl

private theorem castEntry_eq_elim (type : ParamType) (member : Str × Any) :
    castEntry type member =
      ((type.stored member.2).map (Prod.mk member.1)).elim (throwing .badAnyCast) .ok := by
  unfold castEntry
  rw [anyCast_eq_elim]
  cases type.stored member.2 <;> rfl

theorem denotes_of_stored {type : ParamType} {data : Any} {component : type.denote}
    (found : type.stored data = some component) : Denotes type data component := by
  cases type with
  | int => exact Any.asInt_eq_some.mp found
  | double =>
      cases data <;> cases found
      exact Or.inl rfl
  | string => exact Any.asString_eq_some.mp found
  | bool =>
      cases data <;> cases found
      rfl
  | null =>
      cases data <;> cases found
      rfl
  | vec valueType => cases found
  | map mappedType => cases found

/-- The members of a loaded map are in key order. -/
theorem Loadable.keySorted {entries : List (Str × Any)} (loadable : Loadable (.map entries)) :
    KeySorted entries := by
  obtain ⟨document, parsed⟩ := loadable
  obtain ⟨members, _, rfl⟩ := parseJsonElement_eq_map.mp parsed
  rw [parseMembers_eq_foldl]
  exact keySorted_foldl_assign _ keySorted_nil

private theorem keySorted_of_sameKeys {α β : Type} {entries : List (Str × α)}
    {members : List (Str × β)}
    (sameKeys : List.Forall₂ (fun entry member => entry.1 = member.1) entries members)
    (sorted : KeySorted entries) : KeySorted members := by
  have keysEq : entries.map Prod.fst = members.map Prod.fst := by
    induction sameKeys with
    | nil => rfl
    | cons head _ inductionHypothesis =>
        have restSorted := (keySorted_cons.mp sorted).2
        rw [List.map_cons, List.map_cons, head, inductionHypothesis restSorted]
  have increasing : (entries.map Prod.fst).Pairwise (· < ·) := List.pairwise_map.mpr sorted
  rw [keysEq] at increasing
  exact List.pairwise_map.mp increasing

section Component

variable {type : ParamType} {data : Any}

private theorem getv_of_stored {component value : type.denote}
    (found : type.stored data = some value) : getv type data component = .ok value := by
  unfold getv
  rw [found]

private theorem getv_of_missing {component : type.denote}
    (missing : type.stored data = none) : getv type data component = convert type data component := by
  unfold getv
  rw [missing]

/-- A container parameter with such an argument ends the conversion. -/
theorem getv_refused {component : type.denote} (refused : Refuses type data) :
    getv type data component = throwing .badAnyCast := by
  cases type with
  | vec valueType =>
      rw [getv_of_missing rfl, convert_vec]
      cases shape : data.asVec with
      | none =>
          unfold anyCast
          rw [shape]
          rfl
      | some values =>
          have unreadable := refused values (Any.asVec_eq_some.mp shape)
          rw [anyCast_eq_ok.mpr shape, ok_bind]
          exact mapM_of_exists (anyCast_eq_elim valueType.stored) unreadable
  | map mappedType =>
      rw [getv_of_missing rfl, convert_map]
      cases shape : data.asMap with
      | none =>
          unfold anyCast
          rw [shape]
          rfl
      | some entries =>
          obtain ⟨entry, member, missing⟩ := refused entries (Any.asMap_eq_some.mp shape)
          have unreadable : ∃ entry ∈ entries,
              (mappedType.stored entry.2).map (Prod.mk entry.1) = none := by
            refine ⟨entry, member, ?_⟩
            rw [missing]
            rfl
          rw [anyCast_eq_ok.mpr shape, ok_bind,
            mapM_of_exists (castEntry_eq_elim mappedType) unreadable]
          rfl
  | _ => exact False.elim refused

private theorem isInteger_zero_iff {number : Int32} :
    IsInteger Double.zero number.toInt ↔ number = 0 := by
  have isZero : (if Double.zero.negative then -(Double.zero.magnitude : Int)
      else Double.zero.magnitude) = 0 := by
    decide
  unfold IsInteger
  rw [isZero]
  constructor
  · rintro ⟨_, scaled⟩
    have noNumber : number.toInt = 0 := by
      rcases Int.mul_eq_zero.mp scaled.symm with zero | impossible
      · exact zero
      · exact absurd impossible (pow_ne_zero _ (by decide))
    exact Int32.toInt_inj.mp noNumber
  · rintro rfl
    refine ⟨by decide, ?_⟩
    rw [Int32.toInt_zero, Int.zero_mul]

private theorem keeps_of_stored {component : type.denote}
    (found : type.stored data = some component) : Keeps type data := by
  have isStored : (type.stored data).isSome = true := by
    rw [found]
    rfl
  cases type with
  | double =>
      cases data <;> cases found
      exact Or.inl ⟨_, rfl⟩
  | vec valueType => trivial
  | map mappedType => trivial
  | _ => exact isStored

/-- A component that was not assigned does not have the value of its argument. -/
private theorem unassigned (missing : type.stored data = none)
    (assigned : Denotes type data type.initial → type.stored data = some type.initial)
    (kept : Keeps type data → (type.stored data).isSome = true) :
    Denotes type data type.initial ↔ Keeps type data := by
  apply iff_of_false
  · intro denotes
    rw [assigned denotes] at missing
    cases missing
  · intro keeps
    have isStored := kept keeps
    rw [missing] at isStored
    cases isStored

private theorem unassigned_double (missing : ParamType.double.stored data = none) :
    Denotes .double data ParamType.double.initial ↔ Keeps .double data := by
  have notDouble : ∀ component, data ≠ .double component := by
    rintro component rfl
    cases missing
  constructor
  · rintro (same | ⟨number, isInt, isInteger⟩)
    · exact absurd same (notDouble _)
    · rw [isInteger_zero_iff.mp isInteger] at isInt
      exact Or.inr isInt
  · rintro (⟨component, same⟩ | isZero)
    · exact absurd same (notDouble component)
    · exact Or.inr ⟨0, isZero, isInteger_zero_iff.mpr rfl⟩

private theorem getv_vec {valueType : ParamType} (accepted : ¬ Refuses (.vec valueType) data) :
    ∃ component, getv (.vec valueType) data (ParamType.initial (.vec valueType)) = .ok component ∧
      Denotes (.vec valueType) data component := by
  unfold Refuses at accepted
  push Not at accepted
  obtain ⟨values, shape, readable⟩ := accepted
  obtain ⟨results, mapped, matched⟩ :=
    mapM_of_forall (anyCast_eq_elim valueType.stored) readable
  refine ⟨results, ?_, values, shape, ?_⟩
  · rw [getv_of_missing rfl, convert_vec, anyCast_eq_ok.mpr (Any.asVec_eq_some.mpr shape), ok_bind]
    exact mapped
  · exact matched.imp fun _ _ found => denotes_of_stored found

private theorem getv_map {mappedType : ParamType} (accepted : ¬ Refuses (.map mappedType) data) :
    ∃ component, getv (.map mappedType) data (ParamType.initial (.map mappedType)) = .ok component ∧
      (Loadable data → Denotes (.map mappedType) data component) := by
  unfold Refuses at accepted
  push Not at accepted
  obtain ⟨entries, rfl, readable⟩ := accepted
  have readableEntries : ∀ entry ∈ entries,
      (mappedType.stored entry.2).map (Prod.mk entry.1) ≠ none := by
    intro entry member missing
    exact readable entry member (Option.map_eq_none_iff.mp missing)
  obtain ⟨results, mapped, matched⟩ :=
    mapM_of_forall (castEntry_eq_elim mappedType) readableEntries
  have sameEntry : ∀ {entry : Str × Any} {result : Str × mappedType.denote},
      (mappedType.stored entry.2).map (Prod.mk entry.1) = some result →
        entry.1 = result.1 ∧ Denotes mappedType entry.2 result.2 := by
    intro entry result found
    obtain ⟨component, stored, rfl⟩ := Option.map_eq_some_iff.mp found
    exact ⟨rfl, denotes_of_stored stored⟩
  have pairs := matched.imp fun _ _ found => sameEntry found
  refine ⟨OrderedMap.ofEntries results, ?_, fun loadable => ⟨entries, rfl, ?_⟩⟩
  · rw [getv_of_missing rfl, convert_map, anyCast_eq_ok.mpr (Any.asMap_eq_some.mpr rfl), ok_bind,
      mapped, ok_bind]
  · have sorted := keySorted_of_sameKeys (pairs.imp fun _ _ both => both.1) loadable.keySorted
    rw [OrderedMap.entries_ofEntries sorted]
    exact pairs

/-- Any other argument is converted, and the component has its value exactly
when a scalar component was assigned. -/
theorem getv_accepted (accepted : ¬ Refuses type data) :
    ∃ component, getv type data type.initial = .ok component ∧
      (Loadable data → (Denotes type data component ↔ Keeps type data)) := by
  cases found : type.stored data with
  | some component =>
      exact ⟨component, getv_of_stored found, fun _ =>
        iff_of_true (denotes_of_stored found) (keeps_of_stored found)⟩
  | none =>
      have same : ∀ {component : type.denote}, convert type data type.initial = .ok component →
          (Denotes type data component ↔ Keeps type data) →
            ∃ component, getv type data type.initial = .ok component ∧
              (Loadable data → (Denotes type data component ↔ Keeps type data)) :=
        fun converted denotes => ⟨_, (getv_of_missing found).trans converted, fun _ => denotes⟩
      cases type with
      | int => exact same rfl (unassigned found Any.asInt_eq_some.mpr id)
      | double => exact same rfl (unassigned_double found)
      | string => exact same rfl (unassigned found Any.asString_eq_some.mpr id)
      | bool => exact same rfl (unassigned found (by rintro rfl; rfl) id)
      | null => exact same rfl (unassigned found (by rintro rfl; rfl) id)
      | vec valueType =>
          obtain ⟨component, converted, denotes⟩ := getv_vec accepted
          exact ⟨component, converted, fun _ => iff_of_true denotes trivial⟩
      | map mappedType =>
          obtain ⟨component, converted, denotes⟩ := getv_map accepted
          exact ⟨component, converted, fun loadable => iff_of_true (denotes loadable) trivial⟩

end Component

section Vector

/-- Some container parameter refuses its argument. -/
def SomeRefuses (params : List ParamType) (data : List Any) : Prop :=
  ∃ pair ∈ params.zip data, Refuses pair.1 pair.2

private theorem someRefuses_cons {type : ParamType} {rest : List ParamType} {value : Any}
    {others : List Any} :
    SomeRefuses (type :: rest) (value :: others) ↔
      Refuses type value ∨ SomeRefuses rest others := by
  unfold SomeRefuses
  simp

private theorem convertAll_refused :
    ∀ {params : List ParamType} {data : List Any},
      SomeRefuses params data → convertAll params data = throwing .badAnyCast
  | [], _, refused => by
      obtain ⟨_, member, _⟩ := refused
      cases member
  | _ :: _, [], refused => by
      obtain ⟨_, member, _⟩ := refused
      cases member
  | type :: rest, value :: others, refused => by
      unfold convertAll
      by_cases head : Refuses type value
      · rw [getv_refused head]
        rfl
      · have tail : SomeRefuses rest others :=
          (someRefuses_cons.mp refused).resolve_left head
        obtain ⟨component, converted, _⟩ := getv_accepted head
        rw [converted, ok_bind, convertAll_refused tail]
        rfl

private theorem convertAll_long :
    ∀ {params : List ParamType} {data : List Any},
      ¬ SomeRefuses params data → params.length ≤ data.length →
        ∃ args, convertAll params data = .ok args ∧
          ((∀ value ∈ data, Loadable value) → params.length = data.length →
            (TupleDenotes params data args ↔ ∀ pair ∈ params.zip data, Keeps pair.1 pair.2))
  | [], data, _, _ => by
      refine ⟨(), rfl, fun _ same => ?_⟩
      have isNil : data = [] := List.length_eq_zero_iff.mp same.symm
      exact iff_of_true isNil (by simp)
  | _ :: _, [], _, long => absurd long (Nat.not_succ_le_zero _)
  | type :: rest, value :: others, accepted, long => by
      obtain ⟨head, tail⟩ := not_or.mp (someRefuses_cons.not.mp accepted)
      obtain ⟨component, converted, denotes⟩ := getv_accepted head
      obtain ⟨components, later, allDenote⟩ :=
        convertAll_long tail (Nat.le_of_succ_le_succ long)
      refine ⟨(component, components), ?_, fun loadable same => ?_⟩
      · unfold convertAll
        rw [converted, ok_bind, later]
        rfl
      · obtain ⟨headLoadable, restLoadable⟩ := List.forall_mem_cons.mp loadable
        have sameRest := allDenote restLoadable (Nat.succ.inj same)
        show Denotes type value component ∧ TupleDenotes rest others components ↔ _
        rw [denotes headLoadable, sameRest, List.zip_cons_cons, List.forall_mem_cons]

end Vector

/-- The conversion throws, or every component has the value of its argument:
exactly when a container parameter refuses its argument or every scalar
component is assigned. -/
theorem getTuple_denotes_iff {params : List ParamType} {data : List Any}
    (loadable : ∀ value ∈ data, Loadable value) (sameLength : params.length = data.length) :
    ((∃ exception, getTuple params data = throwing exception) ∨
        ∃ args, getTuple params data = .ok args ∧ TupleDenotes params data args) ↔
      SomeRefuses params data ∨ ∀ pair ∈ params.zip data, Keeps pair.1 pair.2 := by
  rw [getTuple_eq_convertAll]
  by_cases refused : SomeRefuses params data
  · exact iff_of_true (Or.inl ⟨_, convertAll_refused refused⟩) (Or.inl refused)
  · obtain ⟨args, converted, denotes⟩ := convertAll_long refused (Nat.le_of_eq sameLength)
    have allDenote := denotes loadable sameLength
    rw [converted]
    constructor
    · rintro (⟨exception, thrown⟩ | ⟨_, same, all⟩)
      · cases thrown
      · cases same
        exact Or.inr (allDenote.mp all)
    · rintro (impossible | kept)
      · exact absurd impossible refused
      · exact Or.inr ⟨args, rfl, allDenote.mpr kept⟩

theorem getTuple_denotes_iff_strings :
    ((∃ exception, getTuple [.int, .vec .string] [.int 1, .vec [.string (ascii "a")]] =
          throwing exception) ∨
        ∃ args, getTuple [.int, .vec .string] [.int 1, .vec [.string (ascii "a")]] = .ok args ∧
          TupleDenotes [.int, .vec .string] [.int 1, .vec [.string (ascii "a")]] args) ↔
      SomeRefuses [.int, .vec .string] [.int 1, .vec [.string (ascii "a")]] ∨
        ∀ pair ∈ [ParamType.int, .vec .string].zip [Any.int 1, .vec [.string (ascii "a")]],
          Keeps pair.1 pair.2 := by
  refine getTuple_denotes_iff (List.forall_mem_cons.mpr ⟨?_, List.forall_mem_singleton.mpr ?_⟩) rfl
  · exact ⟨.int 1, rfl⟩
  · exact ⟨.array [.string (ascii "a")], rfl⟩

/-- The integer 3 for a `double` parameter is passed as 0. -/
theorem not_getTuple_denotes_double :
    ¬ ∀ (params : List ParamType) (data : List Any), (∀ value ∈ data, Loadable value) →
      params.length = data.length →
        (∃ exception, getTuple params data = throwing exception) ∨
          ∃ args, getTuple params data = .ok args ∧ TupleDenotes params data args := by
  intro claimed
  have loadable : ∀ value ∈ [Any.int 3], Loadable value :=
    List.forall_mem_singleton.mpr ⟨.int 3, rfl⟩
  rcases claimed [.double] [.int 3] loadable rfl with ⟨exception, thrown⟩ | ⟨args, same, denotes⟩
  · cases thrown
  · cases same
    rcases denotes.1 with impossible | ⟨number, isThree, isInteger⟩
    · cases impossible
    · cases isThree
      have isZero := isInteger_zero_iff.mp isInteger
      exact absurd isZero (by decide)

variable {env : Env} {server : MessageQueueServer} {task : Task} {f : Handler} {data : List Any}

end Ccmqsrv
