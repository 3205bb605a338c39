import Ccmqsrv.CallProxy
import Ccmqsrv.Foundations.JsonCodec

/-!
# Arguments survive the way to the server

The client turns its arguments into JSON, the server turns the JSON into
dynamically typed values, and `get_tuple` recovers the static types.  For
parameters that are scalars, or vectors or maps of scalars, the tuple that
reaches the function is the tuple the client passed.
-/

namespace Ccmqsrv

open Foundations

namespace ParamType

/-- `int`, `double`, `std::string` and `bool`. -/
def isScalar : ParamType → Bool
  | .int | .double | .string | .bool => true
  | _ => false

/-- Scalars, and vectors and string-keyed maps of scalars. -/
def isArgument : ParamType → Bool
  | .vec valueType => valueType.isScalar
  | .map mappedType => mappedType.isScalar
  | type => type.isScalar

end ParamType

/-- The documents made of the components of a tuple. -/
def Tuple.toJson : (params : List ParamType) → Tuple params → List Json
  | [], _ => []
  | type :: rest, args => type.toJson args.1 :: Tuple.toJson rest args.2

private theorem int_wellFormed (value : Int32) : (Json.int value.toInt).WellFormed := by
  have lower : -2 ^ 31 ≤ value.toInt := value.le_toInt
  have upper : value.toInt < 2 ^ 31 := value.toInt_lt
  show -2 ^ 63 ≤ value.toInt ∧ value.toInt < 2 ^ 64
  omega

theorem ParamType.toJson_wellFormed :
    ∀ (type : ParamType) (value : type.denote), (type.toJson value).WellFormed
  | .int, value => int_wellFormed value
  | .double, _ => trivial
  | .string, _ => trivial
  | .bool, _ => trivial
  | .null, _ => trivial
  | .vec valueType, elements => by
      have parts : ∀ element : valueType.denote, (valueType.toJson element).WellFormed :=
        fun element => toJson_wellFormed valueType element
      unfold Json.WellFormed
      rw [toJson_vec, Json.everywhere_array, List.forall_mem_map]
      exact ⟨trivial, fun element _ => parts element⟩
  | .map mappedType, members => by
      have parts : ∀ value : mappedType.denote, (mappedType.toJson value).WellFormed :=
        fun value => toJson_wellFormed mappedType value
      unfold Json.WellFormed
      rw [toJson_map, Json.everywhere_object, List.forall_mem_map]
      refine ⟨?_, fun member _ => parts member.2⟩
      show KeySorted _
      unfold KeySorted
      rw [List.pairwise_map]
      exact OrderedMap.sorted members

theorem Tuple.toJson_wellFormed :
    ∀ (params : List ParamType) (args : Tuple params),
      ∀ argument ∈ Tuple.toJson params args, argument.WellFormed
  | [], _, _, member => by
      cases member
  | type :: rest, args, argument, member => by
      rcases List.mem_cons.mp member with head | later
      · rw [head]
        exact type.toJson_wellFormed args.1
      · exact Tuple.toJson_wellFormed rest args.2 argument later

/-- A scalar is stored under its own type. -/
theorem ParamType.stored_parseJsonElement {type : ParamType}
    (scalar : type.isScalar = true) (value : type.denote) :
    type.stored (parseJsonElement (type.toJson value)) = some value := by
  cases type with
  | int =>
      show some (Int32.ofInt (Int32.toInt value)) = some value
      rw [Int32.ofInt_toInt]
  | double => rfl
  | string => rfl
  | bool => rfl
  | null => cases scalar
  | vec _ => cases scalar
  | map _ => cases scalar

private theorem mapM_ok_of_forall {α β : Type} {read : α → Cpp β} {write : β → α} :
    ∀ {values : List β}, (∀ value ∈ values, read (write value) = .ok value) →
      (values.map write).mapM read = .ok values
  | [], _ => rfl
  | value :: rest, reads => by
      have head : read (write value) = .ok value := reads value List.mem_cons_self
      have tail : (rest.map write).mapM read = .ok rest :=
        mapM_ok_of_forall fun later member => reads later (List.mem_cons_of_mem _ member)
      rw [List.map_cons, List.mapM_cons, head, ok_bind, tail]
      rfl

private theorem convert_vec_parseJsonElement {valueType : ParamType}
    (scalar : valueType.isScalar = true) (elements : List valueType.denote)
    (component : List valueType.denote) :
    convert (.vec valueType)
        (parseJsonElement (ParamType.toJson (.vec valueType) elements)) component =
      .ok elements := by
  have stored : Any.asVec (parseJsonElement (ParamType.toJson (.vec valueType) elements)) =
      some (elements.map fun element => parseJsonElement (valueType.toJson element)) := by
    rw [ParamType.toJson_vec, parseJsonElement, parseElements_eq_map, List.map_map]
    rfl
  have recovered : (elements.map fun element =>
      parseJsonElement (valueType.toJson element)).mapM (anyCast valueType.stored) =
        .ok elements := by
    apply mapM_ok_of_forall
    intro element _
    exact anyCast_eq_ok.mpr (ParamType.stored_parseJsonElement scalar element)
  rw [convert_vec, anyCast_eq_ok.mpr stored, ok_bind]
  exact recovered

private theorem convert_map_parseJsonElement {mappedType : ParamType}
    (scalar : mappedType.isScalar = true) (members : OrderedMap Str mappedType.denote)
    (component : OrderedMap Str mappedType.denote) :
    convert (.map mappedType)
        (parseJsonElement (ParamType.toJson (.map mappedType) members)) component =
      .ok members := by
  have sorted : KeySorted (members.entries.map fun member =>
      (member.1, mappedType.toJson member.2)) := by
    unfold KeySorted
    rw [List.pairwise_map]
    exact members.sorted
  have stored : Any.asMap (parseJsonElement (ParamType.toJson (.map mappedType) members)) =
      some (members.entries.map fun member =>
        (member.1, parseJsonElement (mappedType.toJson member.2))) := by
    rw [ParamType.toJson_map, parseJsonElement, parseMembers_of_sorted sorted, List.map_map]
    rfl
  have recovered : (members.entries.map fun member =>
      (member.1, parseJsonElement (mappedType.toJson member.2))).mapM (castEntry mappedType) =
        .ok members.entries := by
    apply mapM_ok_of_forall
    intro member _
    have value := anyCast_eq_ok.mpr (ParamType.stored_parseJsonElement scalar member.2)
    unfold castEntry
    rw [value]
    rfl
  rw [convert_map, anyCast_eq_ok.mpr stored, ok_bind, recovered, ok_bind,
    OrderedMap.ofEntries_entries]

/-- `getv` recovers the value of every argument type. -/
theorem getv_parseJsonElement {type : ParamType} (argument : type.isArgument = true)
    (value component : type.denote) :
    getv type (parseJsonElement (type.toJson value)) component = .ok value := by
  by_cases scalar : type.isScalar = true
  · unfold getv
    rw [ParamType.stored_parseJsonElement scalar value]
  · cases type with
    | vec valueType => exact convert_vec_parseJsonElement argument value component
    | map mappedType => exact convert_map_parseJsonElement argument value component
    | int => exact absurd argument scalar
    | double => exact absurd argument scalar
    | string => exact absurd argument scalar
    | bool => exact absurd argument scalar
    | null => exact absurd argument scalar

/-- Induction on the parameters: the components already read are a prefix of
the vector. -/
theorem getComponents_parseElements :
    ∀ {params : List ParamType}, (∀ type ∈ params, type.isArgument = true) →
      ∀ (args : Tuple params) (before : List Any),
        getComponents (before ++ (Tuple.toJson params args).map parseJsonElement)
          params before.length = .ok args
  | [], _, _, _ => rfl
  | type :: rest, supported, args, before => by
      have head : getv type (parseJsonElement (type.toJson args.1)) type.initial =
          .ok args.1 :=
        getv_parseJsonElement (supported type List.mem_cons_self) args.1 type.initial
      have tail := getComponents_parseElements
        (fun later member => supported later (List.mem_cons_of_mem _ member))
        args.2 (before ++ [parseJsonElement (type.toJson args.1)])
      rw [List.append_assoc, List.singleton_append, List.length_append,
        List.length_singleton] at tail
      have found : subscript
          (before ++ (Tuple.toJson (type :: rest) args).map parseJsonElement) before.length =
            .ok (parseJsonElement (type.toJson args.1)) := by
        apply subscript_eq_ok.mpr
        rw [List.getElem?_append_right (Nat.le_refl _), Nat.sub_self]
        rfl
      unfold getComponents
      rw [found, ok_bind, head, ok_bind]
      have same : before ++ (Tuple.toJson (type :: rest) args).map parseJsonElement =
          before ++ parseJsonElement (type.toJson args.1) ::
            (Tuple.toJson rest args.2).map parseJsonElement := rfl
      rw [same, tail, ok_bind]
      rfl

/-- The request document is printed and read back unchanged. -/
theorem rpcEncodeReq_roundTrip {env : Env} (lawful : env.json.Lawful)
    {msgid meth : Str} {args : List Json}
    (idValid : validUtf8 msgid = true) (methValid : validUtf8 meth = true)
    (wellFormed : ∀ argument ∈ args, argument.WellFormed)
    (valid : ∀ argument ∈ args, argument.ValidUtf8)
    (finite : ∀ argument ∈ args, argument.Finite) :
    ∃ text, rpcEncodeReq env msgid meth args = .ok text ∧
      env.json.parse text = some
        (.array [.int 0, .string msgid, .string meth, .array args, .object []]) := by
  have documentValid : Json.ValidUtf8
      (.array [.int 0, .string msgid, .string meth, .array args, .object []]) := by
    unfold Json.ValidUtf8 at *
    simpa using ⟨idValid, methValid, valid⟩
  have unchanged : args.map Json.scrub = args := by
    rw [List.map_congr_left fun argument member => (finite argument member).scrub_eq]
    exact List.map_id' args
  obtain ⟨text, dumped⟩ :=
    (lawful.exists_dump_iff (requestDocument_wellFormed wellFormed)).mpr documentValid
  have encoded : rpcEncodeReq env msgid meth args = .ok text := jsonDump_eq_ok.mpr dumped
  have parsed := parse_of_rpcEncodeReq lawful wellFormed encoded
  rw [unchanged] at parsed
  exact ⟨text, encoded, parsed⟩

/-- What the client passes to a method is what the server hands to the
function registered for it. -/
theorem getTuple_of_rpcEncodeReq {env : Env} (lawful : env.json.Lawful)
    {params : List ParamType} (supported : ∀ type ∈ params, type.isArgument = true)
    (args : Tuple params) {msgid meth checkId : Str}
    (checked : checkId = [] ∨ checkId = msgid)
    (idValid : validUtf8 msgid = true) (methValid : validUtf8 meth = true)
    (valid : ∀ argument ∈ Tuple.toJson params args, argument.ValidUtf8)
    (finite : ∀ argument ∈ Tuple.toJson params args, argument.Finite) :
    ∃ text data request,
      rpcEncodeReq env msgid meth (Tuple.toJson params args) = .ok text ∧
      jsonLoadb env text = .ok data ∧
      rpcDecodeReq env data checkId = .ok request ∧
      request.msgid = msgid ∧ request.meth = meth ∧ request.kws = [] ∧
      getTuple params request.args = .ok args := by
  obtain ⟨text, encoded, parsed⟩ := rpcEncodeReq_roundTrip lawful idValid methValid
    (Tuple.toJson_wellFormed params args) valid finite
  have loaded := jsonLoadb_eq_ok.mpr ⟨_, parsed, rfl⟩
  have recovered := getComponents_parseElements supported args []
  refine ⟨text, _,
    ⟨msgid, meth, (Tuple.toJson params args).map parseJsonElement, []⟩,
    encoded, loaded, ?_, rfl, rfl, rfl, recovered⟩
  apply rpcDecodeReq_eq_ok.mpr
  refine ⟨⟨0, rfl, Or.inl rfl⟩, rfl, ?_, rfl, ?_, rfl⟩
  · rcases checked with unchecked | same
    · exact Or.inl unchecked
    · exact Or.inr (Or.inl same.symm)
  · show some (parseJsonElement (.array (Tuple.toJson params args))) = _
    rw [parseJsonElement, parseElements_eq_map]

/-- `add(int, std::map<std::string, int>)` called with a small integer and a
one-element map. -/
theorem getTuple_of_rpcEncodeReq_add :
    ∃ text data request,
      rpcEncodeReq ⟨codec, true⟩ (ascii "corr-1") (ascii "add")
        (Tuple.toJson [.int, .map .int] (7, OrderedMap.ofEntries [(ascii "a", 1)], ())) =
          .ok text ∧
      jsonLoadb ⟨codec, true⟩ text = .ok data ∧
      rpcDecodeReq ⟨codec, true⟩ data (ascii "corr-1") = .ok request ∧
      request.msgid = ascii "corr-1" ∧ request.meth = ascii "add" ∧ request.kws = [] ∧
      getTuple [.int, .map .int] request.args =
        .ok (7, OrderedMap.ofEntries [(ascii "a", 1)], ()) :=
  @getTuple_of_rpcEncodeReq ⟨codec, true⟩ codec_lawful [.int, .map .int] (by decide)
    (7, OrderedMap.ofEntries [(ascii "a", 1)], ()) (ascii "corr-1") (ascii "add")
    (ascii "corr-1") (Or.inr rfl) (by decide) (by decide) (by decide) (by decide)

end Ccmqsrv
