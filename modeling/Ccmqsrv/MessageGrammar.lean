import Ccmqsrv.OutcomeFidelity

/-!
# Which documents are messages

A request is meant to be `[0, id, method, array, object]` and a reply
`[1, id, error, result]`.  Both decoders accept more than that, and some other
documents make them read outside a vector or abort.  What keeps them in line
is a part of the wrong kind, found before anything else goes wrong.
-/

namespace Ccmqsrv

open Foundations

theorem bind_eq_thrown {α β : Type} {first : Cpp α} {next : α → Cpp β} {exception : Exn} :
    first >>= next = throwing exception ↔
      first = throwing exception ∨
        ∃ value, first = .ok value ∧ next value = throwing exception := by
  cases first with
  | ok value =>
      constructor
      · exact fun thrown => Or.inr ⟨value, rfl, thrown⟩
      · rintro (impossible | ⟨_, same, thrown⟩)
        · cases impossible
        · cases same
          exact thrown
  | error fault =>
      rw [error_bind]
      unfold throwing
      simp

theorem subscript_ne_thrown {α : Type} {data : List α} {index : Nat} {exception : Exn} :
    subscript data index ≠ throwing exception := by
  unfold subscript throwing
  cases data[index]? <;> simp

theorem assertion_ne_thrown {env : Env} {condition : Bool} {exception : Exn} :
    assertion env condition ≠ throwing exception := by
  unfold assertion throwing
  split <;> simp

theorem anyCast_eq_thrown {α : Type} {read : Any → Option α} {value : Any} {exception : Exn} :
    anyCast read value = throwing exception ↔ read value = none ∧ .badAnyCast = exception := by
  unfold anyCast throwing
  cases read value <;> simp

section Request

/-- `[0, s1, s2, array, object]`, with an id that passes the check. -/
def IsRequestDocument (document : Json) (checkId : Str) : Prop :=
  ∃ msgid meth args kws,
    document = .array [.int 0, .string msgid, .string meth, .array args, .object kws] ∧
      (checkId = [] ∨ checkId = msgid)

/-- `json_loadb` followed by `rpc_decode_req`. -/
def decodeRequest (env : Env) (text checkId : Str) : Cpp Request := do
  let data ← jsonLoadb env text
  rpcDecodeReq env data checkId

/-- Requests are decoded, and every other document is rejected by an exception. -/
structure FollowsRequestGrammar (env : Env) (text checkId : Str) (document : Json) : Prop where
  accepts_iff : (∃ request, decodeRequest env text checkId = .ok request) ↔
    IsRequestDocument document checkId
  rejects : ¬ IsRequestDocument document checkId →
    ∃ exception, decodeRequest env text checkId = throwing exception

/-- The kind the decoder expects of the item at this place. -/
def RightKind : Nat → Json → Prop
  | 0, item => ∃ value, item = .int value
  | 1, item => ∃ text, item = .string text
  | 2, item => ∃ text, item = .string text
  | 3, item => ∃ elements, item = .array elements
  | 4, item => ∃ members, item = .object members
  | _, _ => True

/-- The decoder goes on after the item at this place. -/
def GoesOn (env : Env) (checkId : Str) : Nat → Json → Prop
  | 0, item => ∃ value, item = .int value ∧ (Int32.ofInt value = 0 ∨ env.ndebug = true)
  | 1, item => ∃ text, item = .string text ∧
      (checkId = [] ∨ text = checkId ∨ env.ndebug = true)
  | place, item => RightKind place item

/-- The decoder comes to an item of the wrong kind. -/
def MeetsWrongKind (env : Env) (checkId : Str) (items : List Json) : Prop :=
  ∃ place item, items[place]? = some item ∧ ¬ RightKind place item ∧
    ∀ earlier < place, ∃ other, items[earlier]? = some other ∧ GoesOn env checkId earlier other

variable {env : Env} {text checkId : Str} {document : Json} {items : List Json}

private def WrongAt (items : List Json) (place : Nat) : Prop :=
  ∃ item, items[place]? = some item ∧ ¬ RightKind place item

private def OnAt (env : Env) (checkId : Str) (items : List Json) (place : Nat) : Prop :=
  ∃ item, items[place]? = some item ∧ GoesOn env checkId place item

private theorem meetsWrongKind_iff :
    MeetsWrongKind env checkId items ↔
      WrongAt items 0 ∨ OnAt env checkId items 0 ∧
        (WrongAt items 1 ∨ OnAt env checkId items 1 ∧
          (WrongAt items 2 ∨ OnAt env checkId items 2 ∧
            (WrongAt items 3 ∨ OnAt env checkId items 3 ∧ WrongAt items 4))) := by
  constructor
  · rintro ⟨place, item, found, wrong, earlier⟩
    have here : WrongAt items place := ⟨item, found, wrong⟩
    match place with
    | 0 => exact Or.inl here
    | 1 => exact Or.inr ⟨earlier 0 (by decide), Or.inl here⟩
    | 2 => exact Or.inr ⟨earlier 0 (by decide), Or.inr ⟨earlier 1 (by decide), Or.inl here⟩⟩
    | 3 => exact Or.inr ⟨earlier 0 (by decide), Or.inr ⟨earlier 1 (by decide),
        Or.inr ⟨earlier 2 (by decide), Or.inl here⟩⟩⟩
    | 4 => exact Or.inr ⟨earlier 0 (by decide), Or.inr ⟨earlier 1 (by decide),
        Or.inr ⟨earlier 2 (by decide), Or.inr ⟨earlier 3 (by decide), here⟩⟩⟩⟩
    | _ + 5 => exact absurd trivial wrong
  · rintro (⟨item, found, wrong⟩ | ⟨on0, ⟨item, found, wrong⟩ | ⟨on1, ⟨item, found, wrong⟩ |
      ⟨on2, ⟨item, found, wrong⟩ | ⟨on3, ⟨item, found, wrong⟩⟩⟩⟩⟩)
    · exact ⟨0, item, found, wrong, fun _ below => absurd below (Nat.not_lt_zero _)⟩
    · refine ⟨1, item, found, wrong, fun earlier below => ?_⟩
      interval_cases earlier
      exact on0
    · refine ⟨2, item, found, wrong, fun earlier below => ?_⟩
      interval_cases earlier
      · exact on0
      · exact on1
    · refine ⟨3, item, found, wrong, fun earlier below => ?_⟩
      interval_cases earlier
      · exact on0
      · exact on1
      · exact on2
    · refine ⟨4, item, found, wrong, fun earlier below => ?_⟩
      interval_cases earlier
      · exact on0
      · exact on1
      · exact on2
      · exact on3

/-- `std::any_cast` of the item at a place. -/
private def castAt {α : Type} (items : List Json) (place : Nat) (read : Any → Option α) : Cpp α :=
  subscript (items.map parseJsonElement) place >>= anyCast read

private theorem castAt_eq_ok {α : Type} {place : Nat} {read : Any → Option α} {value : α} :
    castAt items place read = .ok value ↔
      ∃ item, items[place]? = some item ∧ read (parseJsonElement item) = some value := by
  unfold castAt
  simp only [bind_eq_ok, subscript_eq_ok, anyCast_eq_ok, List.getElem?_map, Option.map_eq_some_iff]
  constructor
  · rintro ⟨_, ⟨item, found, rfl⟩, cast⟩
    exact ⟨item, found, cast⟩
  · rintro ⟨item, found, cast⟩
    exact ⟨_, ⟨item, found, rfl⟩, cast⟩

/-- A cast followed by a rest of the decoder that depends on the value only
through a check. -/
private theorem castAt_thrown_iff {α β : Type} {place : Nat} {read : Any → Option α}
    {next : α → Cpp β} {passes : α → Prop} {rest : Prop}
    (refuses : ∀ item, read (parseJsonElement item) = none ↔ ¬ RightKind place item)
    (goesOn : ∀ item, GoesOn env checkId place item ↔
      ∃ value, read (parseJsonElement item) = some value ∧ passes value)
    (later : ∀ value, (∃ exception, next value = throwing exception) ↔ passes value ∧ rest) :
    (∃ exception, castAt items place read >>= next = throwing exception) ↔
      WrongAt items place ∨ OnAt env checkId items place ∧ rest := by
  simp only [bind_eq_thrown, castAt_eq_ok]
  simp only [castAt, bind_eq_thrown, subscript_ne_thrown, false_or, subscript_eq_ok,
    anyCast_eq_thrown, List.getElem?_map, Option.map_eq_some_iff]
  constructor
  · rintro ⟨exception, ⟨_, ⟨item, found, rfl⟩, missing, _⟩ | ⟨value, ⟨item, found, cast⟩, thrown⟩⟩
    · exact Or.inl ⟨item, found, (refuses item).mp missing⟩
    · obtain ⟨passed, remaining⟩ := (later value).mp ⟨exception, thrown⟩
      exact Or.inr ⟨⟨item, found, (goesOn item).mpr ⟨value, cast, passed⟩⟩, remaining⟩
  · rintro (⟨item, found, wrong⟩ | ⟨⟨item, found, on⟩, remaining⟩)
    · exact ⟨.badAnyCast, Or.inl ⟨_, ⟨item, found, rfl⟩, (refuses item).mpr wrong, rfl⟩⟩
    · obtain ⟨value, cast, passed⟩ := (goesOn item).mp on
      obtain ⟨exception, thrown⟩ := (later value).mpr ⟨passed, remaining⟩
      exact ⟨exception, Or.inr ⟨value, ⟨item, found, cast⟩, thrown⟩⟩

private theorem assertion_thrown_iff {β : Type} {condition : Bool} {next : Unit → Cpp β} :
    (∃ exception, assertion env condition >>= next = throwing exception) ↔
      (condition = true ∨ env.ndebug = true) ∧ ∃ exception, next () = throwing exception := by
  simp only [bind_eq_thrown, assertion_ne_thrown, false_or, assertion_eq_ok]
  constructor
  · rintro ⟨exception, done, passed, thrown⟩
    exact ⟨passed, exception, thrown⟩
  · rintro ⟨passed, exception, thrown⟩
    exact ⟨exception, (), passed, thrown⟩

private theorem rpcDecodeReq_eq_castAt :
    rpcDecodeReq env (items.map parseJsonElement) checkId =
      castAt items 0 Any.asInt >>= fun typ =>
      assertion env (typ == 0) >>= fun _ =>
      castAt items 1 Any.asString >>= fun msgid =>
      assertion env (checkId.isEmpty || msgid == checkId) >>= fun _ =>
      castAt items 2 Any.asString >>= fun meth =>
      castAt items 3 Any.asVec >>= fun args =>
      castAt items 4 Any.asMap >>= fun kws =>
      .ok { msgid, meth, args, kws } := by
  unfold rpcDecodeReq castAt
  simp only [bind_assoc]
  rfl

private theorem asInt_refuses (item : Json) :
    (parseJsonElement item).asInt = none ↔ ¬ RightKind 0 item := by
  cases item using Json.casesOn <;> simp [parseJsonElement, Any.asInt, RightKind]

private theorem asString_refuses {place : Nat} (text : place = 1 ∨ place = 2) (item : Json) :
    (parseJsonElement item).asString = none ↔ ¬ RightKind place item := by
  rcases text with rfl | rfl <;>
    cases item using Json.casesOn <;> simp [parseJsonElement, Any.asString, RightKind]

private theorem asVec_refuses (item : Json) :
    (parseJsonElement item).asVec = none ↔ ¬ RightKind 3 item := by
  cases item using Json.casesOn <;> simp [parseJsonElement, Any.asVec, RightKind]

private theorem asMap_refuses (item : Json) :
    (parseJsonElement item).asMap = none ↔ ¬ RightKind 4 item := by
  cases item using Json.casesOn <;> simp [parseJsonElement, Any.asMap, RightKind]

private theorem asInt_goesOn (item : Json) :
    GoesOn env checkId 0 item ↔ ∃ typ, (parseJsonElement item).asInt = some typ ∧
      (typ = 0 ∨ env.ndebug = true) := by
  cases item using Json.casesOn <;> simp [parseJsonElement, Any.asInt, GoesOn]

private theorem asString_goesOn (item : Json) :
    GoesOn env checkId 1 item ↔ ∃ msgid, (parseJsonElement item).asString = some msgid ∧
      (checkId = [] ∨ msgid = checkId ∨ env.ndebug = true) := by
  cases item using Json.casesOn <;> simp [parseJsonElement, Any.asString, GoesOn]

private theorem asMeth_goesOn (item : Json) :
    GoesOn env checkId 2 item ↔ ∃ meth, (parseJsonElement item).asString = some meth ∧ True := by
  cases item using Json.casesOn <;> simp [parseJsonElement, Any.asString, GoesOn, RightKind]

private theorem asVec_goesOn (item : Json) :
    GoesOn env checkId 3 item ↔ ∃ args, (parseJsonElement item).asVec = some args ∧ True := by
  cases item using Json.casesOn <;> simp [parseJsonElement, Any.asVec, GoesOn, RightKind]

private theorem asMap_goesOn (item : Json) :
    GoesOn env checkId 4 item ↔ ∃ kws, (parseJsonElement item).asMap = some kws ∧ True := by
  cases item using Json.casesOn <;> simp [parseJsonElement, Any.asMap, GoesOn, RightKind]

/-- The decoder throws exactly when it comes to an item of the wrong kind. -/
theorem rpcDecodeReq_thrown_iff :
    (∃ exception, rpcDecodeReq env (items.map parseJsonElement) checkId = throwing exception) ↔
      MeetsWrongKind env checkId items := by
  rw [meetsWrongKind_iff, rpcDecodeReq_eq_castAt]
  refine castAt_thrown_iff asInt_refuses asInt_goesOn fun typ => ?_
  refine assertion_thrown_iff.trans (and_congr (by simp) ?_)
  refine castAt_thrown_iff (asString_refuses (Or.inl rfl)) asString_goesOn fun msgid => ?_
  refine assertion_thrown_iff.trans (and_congr (by simp [or_assoc]) ?_)
  refine castAt_thrown_iff (asString_refuses (Or.inr rfl)) asMeth_goesOn fun meth => ?_
  rw [true_and]
  refine castAt_thrown_iff asVec_refuses asVec_goesOn fun args => ?_
  rw [true_and]
  have last : WrongAt items 4 ∨ OnAt env checkId items 4 ∧ False ↔ WrongAt items 4 := by
    simp
  refine (castAt_thrown_iff asMap_refuses asMap_goesOn fun kws => ?_).trans last
  simp [throwing]

theorem IsRequestDocument.decoded (parsed : env.json.parse text = some document)
    (isRequest : IsRequestDocument document checkId) :
    ∃ request, decodeRequest env text checkId = .ok request := by
  obtain ⟨msgid, meth, args, kws, rfl, checked⟩ := isRequest
  refine ⟨⟨msgid, meth, args.map parseJsonElement, parseMembers [] kws⟩, ?_⟩
  unfold decodeRequest
  rw [jsonLoadb_eq_ok.mpr ⟨_, parsed, rfl⟩, ok_bind]
  apply requestItems_iff.mpr
  refine ⟨⟨0, rfl, Or.inl rfl⟩, rfl, ?_, rfl, ⟨args, rfl, rfl⟩, ⟨kws, rfl, rfl⟩⟩
  rcases checked with unchecked | same
  · exact Or.inl unchecked
  · exact Or.inr (Or.inl same.symm)

/-- The decoder follows the grammar exactly on the requests and on the
documents where it comes to an item of the wrong kind. -/
theorem followsRequestGrammar_iff (parsed : env.json.parse text = some document) :
    FollowsRequestGrammar env text checkId document ↔
      IsRequestDocument document checkId ∨
        MeetsWrongKind env checkId (jsonItems document) := by
  have thrown_iff : (∃ exception, decodeRequest env text checkId = throwing exception) ↔
      MeetsWrongKind env checkId (jsonItems document) := by
    unfold decodeRequest
    rw [jsonLoadb_eq_ok.mpr ⟨_, parsed, rfl⟩, ok_bind]
    exact rpcDecodeReq_thrown_iff
  constructor
  · intro follows
    by_cases isRequest : IsRequestDocument document checkId
    · exact Or.inl isRequest
    · exact Or.inr (thrown_iff.mp (follows.rejects isRequest))
  · intro either
    by_cases isRequest : IsRequestDocument document checkId
    · exact ⟨iff_of_true (isRequest.decoded parsed) isRequest,
        fun notRequest => absurd isRequest notRequest⟩
    · have thrown := thrown_iff.mpr (either.resolve_left isRequest)
      refine ⟨iff_of_false ?_ isRequest, fun _ => thrown⟩
      rintro ⟨request, decoded⟩
      obtain ⟨exception, threw⟩ := thrown
      rw [decoded] at threw
      cases threw

def isObjectDocument : Json → Bool
  | .object _ => true
  | _ => false

/-- An object whose values are the items of a request. -/
def objectRequest : Str :=
  ascii "\x7b\"a\":0,\"b\":\"corr-1\",\"c\":\"f\",\"d\":[],\"e\":\x7b\x7d\x7d"

theorem followsRequestGrammar_iff_plain :
    FollowsRequestGrammar ⟨codec, false⟩ plainRequest.body (ascii "corr-1")
        (.array [.int 0, .string (ascii "corr-1"), .string (ascii "f"), .array [], .object []]) ↔
      IsRequestDocument
          (.array [.int 0, .string (ascii "corr-1"), .string (ascii "f"), .array [], .object []])
          (ascii "corr-1") ∨
        MeetsWrongKind ⟨codec, false⟩ (ascii "corr-1")
          [.int 0, .string (ascii "corr-1"), .string (ascii "f"), .array [], .object []] :=
  @followsRequestGrammar_iff ⟨codec, false⟩ plainRequest.body (ascii "corr-1") _ rfl

/-- An object passes for a request. -/
theorem not_followsRequestGrammar_object :
    ¬ ∀ (ndebug : Bool) (text checkId : Str) (document : Json),
      codec.parse text = some document →
        FollowsRequestGrammar ⟨codec, ndebug⟩ text checkId document := by
  intro claimed
  have isObject : (codec.parse objectRequest).any isObjectDocument = true := by decide +kernel
  have returns : (decodeRequest ⟨codec, false⟩ objectRequest (ascii "corr-1")).isOk = true := by
    decide +kernel
  obtain ⟨document, parsed, object⟩ := Option.any_eq_true _ _ |>.mp isObject
  have accepts := (claimed false objectRequest (ascii "corr-1") document parsed).accepts_iff
  cases decoded : decodeRequest ⟨codec, false⟩ objectRequest (ascii "corr-1") with
  | error fault =>
      rw [decoded] at returns
      cases returns
  | ok request =>
      obtain ⟨_, _, _, _, rfl, _⟩ := accepts.mp ⟨request, decoded⟩
      cases object

end Request

section Reply

/-- `[1, id, error, result]`, with an id that passes the check. -/
def IsReplyDocument (document : Json) (checkId : Str) : Prop :=
  ∃ id error result,
    document = .array [.int 1, .string id, error, result] ∧ (checkId = [] ∨ checkId = id)

/-- Replies are decoded, and every other document is rejected by an exception. -/
structure FollowsReplyGrammar (env : Env) (text error checkId : Str) (document : Json) : Prop where
  accepts_iff : (∃ ret, rpcDecodeRep env text error checkId = .ok ret) ↔
    IsReplyDocument document checkId
  rejects : ¬ IsReplyDocument document checkId →
    ∃ exception, rpcDecodeRep env text error checkId = throwing exception

/-- What `get<int>()` converts. -/
def IsNumeric : Json → Prop
  | .int _ => True
  | .float _ => True
  | .bool _ => True
  | _ => False

/-- The element of an array; missing elements are `null`. -/
def elementAt (elements : List Json) (place : Nat) : Json :=
  elements[place]?.getD .null

/-- The first part of the array is no number, or it passes for the tag and the
second is no string.  On any other kind of document nothing is decoded. -/
def MeetsBadPart (env : Env) (document : Json) : Prop :=
  ∀ elements, document = .array elements →
    ¬ IsNumeric (elementAt elements 0) ∨
      (∃ tag, getInt (elementAt elements 0) = .ok tag ∧ (tag = 1 ∨ env.ndebug = true)) ∧
        ∀ id, elementAt elements 1 ≠ .string id

variable {env : Env} {text error checkId : Str} {document : Json} {elements : List Json}

private theorem getInt_thrown_iff {item : Json} :
    (∃ exception, getInt item = throwing exception) ↔ ¬ IsNumeric item := by
  cases item using Json.casesOn with
  | float value =>
      have converted : getInt (.float value) =
          if -2 ^ 31 ≤ value.truncate ∧ value.truncate < 2 ^ 31 then
            .ok (Int32.ofInt value.truncate)
          else .error .undefined := rfl
      rw [converted]
      by_cases fits : -2 ^ 31 ≤ value.truncate ∧ value.truncate < 2 ^ 31
      · rw [if_pos fits]
        simp [IsNumeric, throwing]
      · rw [if_neg fits]
        simp [IsNumeric, throwing]
  | _ => simp [getInt, IsNumeric, throwing]

private theorem getString_thrown_iff {item : Json} :
    (∃ exception, getString item = throwing exception) ↔ ∀ id, item ≠ .string id := by
  cases item using Json.casesOn <;> simp [getString, throwing]

private theorem bind_thrown_iff {α β : Type} {first : Cpp α} {next : α → Cpp β} :
    (∃ exception, first >>= next = throwing exception) ↔
      (∃ exception, first = throwing exception) ∨
        ∃ value, first = .ok value ∧ ∃ exception, next value = throwing exception := by
  simp only [bind_eq_thrown]
  constructor
  · rintro ⟨exception, thrown | ⟨value, returned, thrown⟩⟩
    · exact Or.inl ⟨exception, thrown⟩
    · exact Or.inr ⟨value, returned, exception, thrown⟩
  · rintro (⟨exception, thrown⟩ | ⟨value, returned, exception, thrown⟩)
    · exact ⟨exception, Or.inl thrown⟩
    · exact ⟨exception, Or.inr ⟨value, returned, thrown⟩⟩

private theorem rpcDecodeRep_array (parsed : env.json.parse text = some (.array elements)) :
    rpcDecodeRep env text error checkId =
      getInt (elementAt elements 0) >>= fun typ =>
      assertion env (typ == 1) >>= fun _ =>
      getString (elementAt elements 1) >>= fun msgid =>
      assertion env (checkId.isEmpty || msgid == checkId) >>= fun _ =>
      jsonDump env (elementAt elements 3) >>= fun result =>
      .ok (copyError (elementAt elements 2) error, result) := by
  unfold rpcDecodeRep
  rw [jsonParse_eq_ok.mpr parsed]
  rfl

/-- The parts of a parsed document can be printed. -/
private theorem dump_elementAt (lawful : env.json.Lawful)
    (parsed : env.json.parse text = some (.array elements)) (place : Nat) :
    ∃ printed, jsonDump env (elementAt elements place) = .ok printed := by
  have sound := lawful.parse_sound _ _ parsed
  have valid : (elementAt elements place).WellFormed ∧ (elementAt elements place).ValidUtf8 := by
    unfold elementAt
    cases found : elements[place]? with
    | none => exact ⟨trivial, trivial⟩
    | some element =>
        have member := List.mem_of_getElem? found
        exact ⟨(Json.wellFormed_array _).mp sound.1 element member,
          (Json.validUtf8_array _).mp sound.2.1 element member⟩
  obtain ⟨printed, dumped⟩ := (lawful.exists_dump_iff valid.1).mpr valid.2
  exact ⟨printed, jsonDump_eq_ok.mpr dumped⟩

private theorem rpcDecodeRep_array_thrown_iff (lawful : env.json.Lawful)
    (parsed : env.json.parse text = some (.array elements)) :
    (∃ exception, rpcDecodeRep env text error checkId = throwing exception) ↔
      ¬ IsNumeric (elementAt elements 0) ∨
        (∃ tag, getInt (elementAt elements 0) = .ok tag ∧ (tag = 1 ∨ env.ndebug = true)) ∧
          ∀ id, elementAt elements 1 ≠ .string id := by
  obtain ⟨printed, dumped⟩ := dump_elementAt lawful parsed 3
  rw [rpcDecodeRep_array parsed, dumped]
  have afterId : ∀ msgid : Str, ¬ ∃ exception,
      (assertion env (checkId.isEmpty || msgid == checkId) >>= fun _ =>
        (.ok printed : Cpp Str) >>= fun result =>
          (.ok (copyError (elementAt elements 2) error, result) : Cpp (Str × Str))) =
            throwing exception := by
    intro msgid thrown
    obtain ⟨_, exception, impossible⟩ := assertion_thrown_iff.mp thrown
    cases impossible
  rw [bind_thrown_iff, getInt_thrown_iff]
  apply or_congr_right
  constructor
  · rintro ⟨tag, converted, thrown⟩
    obtain ⟨passed, thrownId⟩ := assertion_thrown_iff.mp thrown
    rcases bind_thrown_iff.mp thrownId with notString | ⟨msgid, _, thrownLater⟩
    · exact ⟨⟨tag, converted, by simpa using passed⟩, getString_thrown_iff.mp notString⟩
    · exact absurd thrownLater (afterId msgid)
  · rintro ⟨⟨tag, converted, passed⟩, notString⟩
    refine ⟨tag, converted, assertion_thrown_iff.mpr ⟨by simpa using passed, ?_⟩⟩
    exact bind_thrown_iff.mpr (Or.inl (getString_thrown_iff.mpr notString))

/-- Only an array is read past its first part. -/
private theorem rpcDecodeRep_notArray (parsed : env.json.parse text = some document)
    (notArray : ∀ elements, document ≠ .array elements) :
    ∃ exception, rpcDecodeRep env text error checkId = throwing exception := by
  unfold rpcDecodeRep
  rw [jsonParse_eq_ok.mpr parsed]
  cases document using Json.casesOn with
  | array elements => exact absurd rfl (notArray elements)
  | _ => exact ⟨_, rfl⟩

/-- The decoder throws exactly at a bad part. -/
theorem rpcDecodeRep_thrown_iff (lawful : env.json.Lawful)
    (parsed : env.json.parse text = some document) :
    (∃ exception, rpcDecodeRep env text error checkId = throwing exception) ↔
      MeetsBadPart env document := by
  by_cases isArray : ∃ elements, document = .array elements
  · obtain ⟨elements, rfl⟩ := isArray
    rw [rpcDecodeRep_array_thrown_iff lawful parsed]
    constructor
    · intro bad others same
      cases same
      exact bad
    · exact fun bad => bad elements rfl
  · have notArray : ∀ elements, document ≠ .array elements :=
      fun elements same => isArray ⟨elements, same⟩
    exact iff_of_true (rpcDecodeRep_notArray parsed notArray)
      fun elements same => absurd same (notArray elements)

theorem IsReplyDocument.decoded (lawful : env.json.Lawful)
    (parsed : env.json.parse text = some document) (isReply : IsReplyDocument document checkId) :
    ∃ ret, rpcDecodeRep env text error checkId = .ok ret := by
  obtain ⟨id, failure, result, rfl, checked⟩ := isReply
  obtain ⟨printed, dumped⟩ := dump_elementAt lawful parsed 3
  have passes : assertion env (checkId.isEmpty || id == checkId) = .ok () := by
    apply assertion_eq_ok.mpr
    left
    rcases checked with rfl | rfl
    · rfl
    · simp
  have typed : getInt (elementAt [.int 1, .string id, failure, result] 0) = .ok 1 := rfl
  have named : getString (elementAt [.int 1, .string id, failure, result] 1) = .ok id := rfl
  have isOne : assertion env ((1 : Int32) == 1) = .ok () := assertion_eq_ok.mpr (Or.inl rfl)
  refine ⟨(copyError failure error, printed), ?_⟩
  rw [rpcDecodeRep_array parsed, typed, ok_bind, isOne, ok_bind, named, ok_bind,
    passes, ok_bind, dumped, ok_bind]
  rfl

/-- The decoder follows the grammar exactly on the replies and on the documents
with a bad part. -/
theorem followsReplyGrammar_iff (lawful : env.json.Lawful)
    (parsed : env.json.parse text = some document) :
    FollowsReplyGrammar env text error checkId document ↔
      IsReplyDocument document checkId ∨ MeetsBadPart env document := by
  have thrown_iff : (∃ exception, rpcDecodeRep env text error checkId = throwing exception) ↔
      MeetsBadPart env document := rpcDecodeRep_thrown_iff lawful parsed
  constructor
  · intro follows
    by_cases isReply : IsReplyDocument document checkId
    · exact Or.inl isReply
    · exact Or.inr (thrown_iff.mp (follows.rejects isReply))
  · intro either
    by_cases isReply : IsReplyDocument document checkId
    · exact ⟨iff_of_true (isReply.decoded lawful parsed) isReply,
        fun notReply => absurd isReply notReply⟩
    · have thrown := thrown_iff.mpr (either.resolve_left isReply)
      refine ⟨iff_of_false ?_ isReply, fun _ => thrown⟩
      rintro ⟨ret, decoded⟩
      obtain ⟨exception, threw⟩ := thrown
      rw [decoded] at threw
      cases threw

/-- `[1, "corr-1", null, 3]` -/
def plainReply : Str :=
  ascii "[1,\"corr-1\",null,3]"

def isPairDocument : Json → Bool
  | .array [_, _] => true
  | _ => false

/-- `[true, "corr-1"]` -/
def shortReply : Str :=
  ascii "[true,\"corr-1\"]"

theorem followsReplyGrammar_iff_plain :
    FollowsReplyGrammar ⟨codec, false⟩ plainReply [] (ascii "corr-1")
        (.array [.int 1, .string (ascii "corr-1"), .null, .int 3]) ↔
      IsReplyDocument (.array [.int 1, .string (ascii "corr-1"), .null, .int 3])
          (ascii "corr-1") ∨
        MeetsBadPart ⟨codec, false⟩
          (.array [.int 1, .string (ascii "corr-1"), .null, .int 3]) :=
  @followsReplyGrammar_iff ⟨codec, false⟩ plainReply [] (ascii "corr-1") _ codec_lawful rfl

/-- An array of two elements passes for a successful reply. -/
theorem not_followsReplyGrammar_short :
    ¬ ∀ (ndebug : Bool) (text error checkId : Str) (document : Json),
      codec.parse text = some document →
        FollowsReplyGrammar ⟨codec, ndebug⟩ text error checkId document := by
  intro claimed
  have isPair : (codec.parse shortReply).any isPairDocument = true := by decide +kernel
  have returns : (rpcDecodeRep ⟨codec, false⟩ shortReply [] []).isOk = true := by decide +kernel
  obtain ⟨document, parsed, pair⟩ := Option.any_eq_true _ _ |>.mp isPair
  have accepts := (claimed false shortReply [] [] document parsed).accepts_iff
  cases decoded : rpcDecodeRep ⟨codec, false⟩ shortReply [] [] with
  | error fault =>
      rw [decoded] at returns
      cases returns
  | ok ret =>
      obtain ⟨_, _, _, rfl, _⟩ := accepts.mp ⟨ret, decoded⟩
      cases pair

end Reply

end Ccmqsrv
