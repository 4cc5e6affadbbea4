import Marine.Json.DeclaredKeys
import Marine.Json.RoundTrip

/-!
# Named and positional arguments

Objects that have exactly the declared keys can be replaced by arrays in the
declared order, in argument lists and in records at any depth.

* `members_agree`: the members of one object against the array of them.
* `value_agrees`: one value.
* `named_positional_agree`: both forms of the arguments of a call convert to the
  same values, or neither is accepted.
-/

namespace Marine.Json

open Marine.Runtime

/-! ## The positional form -/

mutual

def posValue (recordTypes : RecordTypes) (j : JValue) (ty : IType) : JValue :=
  match ty with
  | .array elem =>
    match j with
    | .array js => .array (posElements recordTypes js elem)
    | j => j
  | .record id =>
    match recordTypes.lookup id with
    | some recordType => posArgs recordTypes j (fieldArgs recordType)
    | none => j
  | _ => j
termination_by (sizeOf j, 1)

/-- An object becomes the array of its members in the declared order. -/
def posArgs (recordTypes : RecordTypes) (j : JValue) (args : List FunctionArg) : JValue :=
  match j with
  | .object jsonMap => .array (posMembers recordTypes jsonMap args)
  | .array js => .array (posZipped recordTypes js args)
  | j => j
termination_by (sizeOf j, 0)

def posMembers (recordTypes : RecordTypes) (jsonMap : List (String × JValue))
    (args : List FunctionArg) : List JValue :=
  match args with
  | [] => []
  | arg :: args =>
    match hmember : jsonMap.lookup arg.name with
    | some j =>
      have _hlt := lookup_sizeOf hmember
      posValue recordTypes j arg.ty :: posMembers recordTypes jsonMap args
    | none => posMembers recordTypes jsonMap args
termination_by (sizeOf jsonMap, args.length)

def posZipped (recordTypes : RecordTypes) (js : List JValue) (args : List FunctionArg) :
    List JValue :=
  match js, args with
  | j :: js, arg :: args => posValue recordTypes j arg.ty :: posZipped recordTypes js args
  | js, _ => js
termination_by (sizeOf js, 0)

def posElements (recordTypes : RecordTypes) (js : List JValue) (ty : IType) : List JValue :=
  match js with
  | [] => []
  | j :: js => posValue recordTypes j ty :: posElements recordTypes js ty
termination_by (sizeOf js, 0)

end

/-! ## Unfolding -/

section Unfolding

variable (recordTypes : RecordTypes)

theorem posValue_scalar (j : JValue) {ty : IType} (h : isScalarType ty) :
    posValue recordTypes j ty = j := by
  rw [posValue.eq_def]
  cases ty <;> first | rfl | cases h

theorem posValue_byteArray (j : JValue) : posValue recordTypes j .byteArray = j := by
  rw [posValue.eq_def]

theorem posElements_eq (js : List JValue) (ty : IType) :
    posElements recordTypes js ty = js.map fun j => posValue recordTypes j ty := by
  induction js with
  | nil => rw [posElements, List.map_nil]
  | cons j js ih => rw [posElements, ih, List.map_cons]

theorem posValue_array (js : List JValue) (ty : IType) :
    posValue recordTypes (.array js) (.array ty) =
      .array (js.map fun j => posValue recordTypes j ty) := by
  rw [posValue, posElements_eq]

theorem posValue_record {id : Nat} {recordType : IRecordType}
    (h : recordTypes.lookup id = some recordType) (j : JValue) :
    posValue recordTypes j (.record id) = posArgs recordTypes j (fieldArgs recordType) := by
  rw [posValue]
  simp only [h]

theorem length_posZipped (js : List JValue) (args : List FunctionArg) :
    (posZipped recordTypes js args).length = js.length := by
  induction js generalizing args with
  | nil => simp [posZipped]
  | cons j js ih =>
    cases args with
    | nil => simp [posZipped]
    | cons arg args => simp [posZipped, ih]

variable {recordTypes} in
theorem posMembers_cons {jsonMap : List (String × JValue)} {arg : FunctionArg} {j : JValue}
    (h : jsonMap.lookup arg.name = some j) (args : List FunctionArg) :
    posMembers recordTypes jsonMap (arg :: args) =
      posValue recordTypes j arg.ty :: posMembers recordTypes jsonMap args := by
  rw [posMembers]
  split
  · rename_i hmember
    rw [h] at hmember
    cases hmember
    rfl
  · rename_i hnone
    rw [h] at hnone
    cases hnone

variable {recordTypes} in
theorem posMembers_none {jsonMap : List (String × JValue)} {arg : FunctionArg}
    (h : jsonMap.lookup arg.name = none) (args : List FunctionArg) :
    posMembers recordTypes jsonMap (arg :: args) = posMembers recordTypes jsonMap args := by
  rw [posMembers]
  split
  · rename_i hmember
    rw [h] at hmember
    cases hmember
  · rfl

variable {recordTypes} in
/-- Only the members with the declared names count. -/
theorem posMembers_congr {jsonMap jsonMap' : List (String × JValue)} {args : List FunctionArg}
    (h : ∀ arg ∈ args, jsonMap.lookup arg.name = jsonMap'.lookup arg.name) :
    posMembers recordTypes jsonMap args = posMembers recordTypes jsonMap' args := by
  induction args with
  | nil => rw [posMembers, posMembers]
  | cons arg args ih =>
    have hrest := ih fun arg' harg' => h arg' (List.mem_cons_of_mem arg harg')
    have hsame := h arg List.mem_cons_self
    cases hmember : jsonMap'.lookup arg.name with
    | none => rw [posMembers_none hmember, posMembers_none (hsame.trans hmember), hrest]
    | some j => rw [posMembers_cons hmember, posMembers_cons (hsame.trans hmember), hrest]

end Unfolding

/-! ## Agreement of both forms -/

/-- Every object in the place of an argument list or a record has the declared keys. -/
def AllDeclared (recordTypes : RecordTypes) (j : JValue) (ty : IType) : Prop :=
  ∀ jsonMap args, Stands recordTypes j ty jsonMap args → HasDeclaredKeys jsonMap args

section Agreement

variable {serde : SerdeJson} {recordTypes : RecordTypes}

/-- Both forms of one value convert to the same. -/
def Agrees (serde : SerdeJson) (recordTypes : RecordTypes) (j : JValue) (ty : IType) : Prop :=
  Fallible.SameOk (jvalueToIvalue serde recordTypes j ty)
    (jvalueToIvalue serde recordTypes (posValue recordTypes j ty) ty)

/-- One round of a loop. -/
theorem Agrees.cons {j : JValue} {ty : IType} {xs ys : JsonResult (List IValue)}
    (h : Agrees serde recordTypes j ty) (hs : Fallible.SameOk xs ys) :
    Fallible.SameOk
      (jvalueToIvalue serde recordTypes j ty >>= fun v => xs >>= fun vs => .ok (v :: vs))
      (jvalueToIvalue serde recordTypes (posValue recordTypes j ty) ty >>= fun v =>
        ys >>= fun vs => .ok (v :: vs)) :=
  h.bind fun _ => hs.bind fun _ => .refl _

/-- **Named against positional.**  The members of an object that has exactly the
declared keys are taken out one by one, and the array lists them in this order. -/
theorem members_agree {jsonMap : List (String × JValue)} {args : List FunctionArg}
    (hkeys : (jsonMap.map Prod.fst).Perm (argNames args)) (hnames : DistinctNames args)
    (hagree : ∀ arg ∈ args, ∀ j, jsonMap.lookup arg.name = some j →
      Agrees serde recordTypes j arg.ty) (done : Nat) :
    (posMembers recordTypes jsonMap args).length = args.length ∧
      Fallible.SameOk (jsonMapToIvalues serde recordTypes jsonMap args done)
        (zippedToIvalues serde recordTypes (posMembers recordTypes jsonMap args)
          (args.map FunctionArg.ty)) := by
  induction args generalizing jsonMap done with
  | nil =>
    have hempty : jsonMap = [] := List.map_eq_nil_iff.mp hkeys.eq_nil
    rw [hempty, posMembers, jsonMapToIvalues, zippedToIvalues.eq_def, if_pos rfl]
    exact ⟨rfl, .refl _⟩
  | cons arg args ih =>
    have hmem : arg.name ∈ jsonMap.map Prod.fst := hkeys.mem_iff.mpr List.mem_cons_self
    obtain ⟨⟨j, rest⟩, hremove⟩ :=
      Option.isSome_iff_exists.mp (removeEntry_isSome_iff.mpr hmem)
    have hlookup := lookup_of_removeEntry hremove
    obtain ⟨hnew, hnames⟩ := List.nodup_cons.mp hnames
    have hothers : ∀ arg' ∈ args, rest.lookup arg'.name = jsonMap.lookup arg'.name := by
      intro arg' harg'
      apply lookup_rest hremove
      intro hsame
      exact hnew (hsame ▸ List.mem_map_of_mem harg')
    have hrestKeys : (rest.map Prod.fst).Perm (argNames args) :=
      ((removeEntry_keys hremove).symm.trans hkeys).cons_inv
    obtain ⟨hlength, hrest⟩ := ih hrestKeys hnames (fun arg' harg' j' hj' =>
      hagree arg' (List.mem_cons_of_mem arg harg') j' (hothers arg' harg' ▸ hj')) (done + 1)
    rw [posMembers_congr hothers] at hlength hrest
    rw [posMembers_cons hlookup, jsonMapToIvalues_cons hremove, List.map_cons, zippedToIvalues]
    exact ⟨congrArg Nat.succ hlength, (hagree arg List.mem_cons_self j hlookup).cons hrest⟩

theorem zipped_agree {js : List JValue} {args : List FunctionArg}
    (hagree : ∀ p ∈ js.zip args, Agrees serde recordTypes p.1 p.2.ty) :
    Fallible.SameOk (zippedToIvalues serde recordTypes js (args.map FunctionArg.ty))
      (zippedToIvalues serde recordTypes (posZipped recordTypes js args)
        (args.map FunctionArg.ty)) := by
  induction js generalizing args with
  | nil =>
    rw [posZipped.eq_def]
    exact .refl _
  | cons j js ih =>
    cases args with
    | nil =>
      rw [posZipped.eq_def]
      exact .refl _
    | cons arg args =>
      rw [posZipped, List.map_cons, zippedToIvalues, zippedToIvalues]
      exact (hagree (j, arg) List.mem_cons_self).cons
        (ih fun p hp => hagree p (List.mem_cons_of_mem _ hp))

theorem array_agree {js : List JValue} {args : List FunctionArg}
    (hagree : ∀ p ∈ js.zip args, Agrees serde recordTypes p.1 p.2.ty) :
    Fallible.SameOk (jsonArrayToIvalues serde recordTypes js (args.map FunctionArg.ty))
      (jsonArrayToIvalues serde recordTypes (posZipped recordTypes js args)
        (args.map FunctionArg.ty)) := by
  rw [jsonArrayToIvalues, jsonArrayToIvalues, length_posZipped]
  by_cases hlength : js.length ≠ (args.map FunctionArg.ty).length
  · rw [if_pos hlength, if_pos hlength]
    exact .refl _
  · rw [if_neg hlength, if_neg hlength]
    exact zipped_agree hagree

theorem perm_of_declared {jsonMap : List (String × JValue)} {args : List FunctionArg}
    (hkeys : HasDeclaredKeys jsonMap args) (hnames : DistinctNames args) :
    (jsonMap.map Prod.fst).Perm (argNames args) :=
  (List.perm_ext_iff_of_nodup hkeys.1 hnames).mpr hkeys.2

theorem object_agree {jsonMap : List (String × JValue)} {args : List FunctionArg}
    (hnames : DistinctNames args) (hkeys : HasDeclaredKeys jsonMap args)
    (hagree : ∀ arg ∈ args, ∀ j, jsonMap.lookup arg.name = some j →
      Agrees serde recordTypes j arg.ty) :
    Fallible.SameOk (jsonMapToIvalues serde recordTypes jsonMap args 0)
      (jsonArrayToIvalues serde recordTypes (posMembers recordTypes jsonMap args)
        (args.map FunctionArg.ty)) := by
  obtain ⟨hlength, hsame⟩ := members_agree (perm_of_declared hkeys hnames) hnames hagree 0
  rw [jsonArrayToIvalues, if_neg (by simp [hlength])]
  exact hsame

/-- **Records**, by name and by position, when the values inside agree. -/
theorem record_agrees (hfields : DistinctFields recordTypes) {j : JValue} {id : Nat}
    (hdeclared : AllDeclared recordTypes j (.record id))
    (hinner : ∀ j' ty', sizeOf j' < sizeOf j → AllDeclared recordTypes j' ty' →
      Agrees serde recordTypes j' ty') : Agrees serde recordTypes j (.record id) := by
  unfold Agrees
  cases hrecord : recordTypes.lookup id with
  | none =>
    rw [posValue]
    simp only [hrecord]
    exact .refl _
  | some recordType =>
    rw [posValue_record recordTypes hrecord]
    cases j with
    | object entries =>
      rw [posArgs, jvalueToIvalue_object serde hrecord,
        jvalueToIvalue_fieldArray serde hrecord, ← map_ty_fieldArgs]
      refine (object_agree (hfields id recordType hrecord)
        (hdeclared _ _ (.record hrecord (.here _ _))) fun arg harg j' hj' => ?_).bind
          fun vs => .refl _
      apply hinner
      · have hlt := lookup_sizeOf hj'
        simp
        omega
      · exact fun jsonMap args hstands =>
          hdeclared jsonMap args (.record hrecord (.named harg hj' hstands))
    | array js =>
      rw [posArgs, jvalueToIvalue_fieldArray serde hrecord,
        jvalueToIvalue_fieldArray serde hrecord, ← map_ty_fieldArgs]
      refine (array_agree fun p hp => ?_).bind fun vs => .refl _
      apply hinner
      · have hlt := List.sizeOf_lt_of_mem (List.of_mem_zip hp).1
        simp
        omega
      · exact fun jsonMap args hstands =>
          hdeclared jsonMap args (.record hrecord (.positional hp hstands))
    | _ =>
      rw [posArgs.eq_def]
      exact .refl _

/-- **One value.**  The induction is on the size of the JSON value. -/
theorem value_agrees (hfields : DistinctFields recordTypes) {j : JValue} {ty : IType}
    (hdeclared : AllDeclared recordTypes j ty) : Agrees serde recordTypes j ty := by
  induction hsize : sizeOf j using Nat.strongRecOn generalizing j ty with
  | _ n ih =>
    have hinner : ∀ j' ty', sizeOf j' < sizeOf j → AllDeclared recordTypes j' ty' →
        Agrees serde recordTypes j' ty' :=
      fun j' ty' hlt hdeclared' => ih (sizeOf j') (hsize ▸ hlt) hdeclared' rfl
    by_cases hscalar : isScalarType ty
    · unfold Agrees
      rw [posValue_scalar recordTypes j hscalar]
      exact .refl _
    · cases ty with
      | byteArray =>
        unfold Agrees
        rw [posValue_byteArray]
        exact .refl _
      | array elem =>
        unfold Agrees
        cases j with
        | array js =>
          rw [posValue_array, jvalueToIvalue_array, jvalueToIvalue_array, elementsToIvalues_eq,
            elementsToIvalues_eq]
          refine (Fallible.SameOk.mapM fun j' hj' => ?_).bind fun vs => .refl _
          apply hinner
          · have hlt := List.sizeOf_lt_of_mem hj'
            simp
            omega
          · exact fun jsonMap args hstands => hdeclared jsonMap args (.element hj' hstands)
        | _ =>
          rw [posValue.eq_def]
          exact .refl _
      | record id => exact record_agrees hfields hdeclared hinner
      | _ => exact absurd rfl hscalar

end Agreement

/-! ## Arguments of a call -/

/-- Both return the same values, or both an error. -/
def SameOutcome {α : Type} (x y : JsonResult α) : Prop :=
  (∃ a, x = .ok a ∧ y = .ok a) ∨ ∃ e e', x = .error (.error e) ∧ y = .error (.error e')

theorem sameOutcome_of_sameOk {α : Type} {x y : JsonResult α} (h : Fallible.SameOk x y)
    (hx : x ≠ .error .panicked) (hy : y ≠ .error .panicked) : SameOutcome x y := by
  cases x with
  | ok a => exact .inl ⟨a, rfl, (h a).mp rfl⟩
  | error e =>
    cases y with
    | ok a => cases (h a).mpr rfl
    | error e' =>
      cases e with
      | panicked => exact absurd rfl hx
      | error e =>
        cases e' with
        | panicked => exact absurd rfl hy
        | error e' => exact .inr ⟨e, e', rfl, rfl⟩

section Calls

variable {serde : SerdeJson} {recordTypes : RecordTypes} {args : List FunctionArg} {j : JValue}

theorem jsonToIvalues_agree (hfields : DistinctFields recordTypes) (hnames : DistinctNames args)
    (hdeclared : ∀ jsonMap args', StandsInArgs recordTypes j args jsonMap args' →
      HasDeclaredKeys jsonMap args') :
    Fallible.SameOk (jsonToIvalues serde j args recordTypes)
      (jsonToIvalues serde (posArgs recordTypes j args) args recordTypes) := by
  cases j with
  | object entries =>
    rw [posArgs]
    exact object_agree hnames (hdeclared _ _ (.here _ _)) fun arg harg j' hj' =>
      value_agrees hfields fun jsonMap args' hstands =>
        hdeclared jsonMap args' (.named harg hj' hstands)
  | array js =>
    rw [posArgs]
    exact array_agree fun p hp => value_agrees hfields fun jsonMap args' hstands =>
      hdeclared jsonMap args' (.positional hp hstands)
  | _ =>
    rw [posArgs.eq_def]
    exact .refl _

end Calls

/-- **Named and positional arguments agree**, and no object with a key too few or
too many is accepted.  Without arguments there are three forms. -/
theorem named_positional_agree {serde : SerdeJson} {recordTypes : RecordTypes}
    {args : List FunctionArg} (hne : NonEmptyRecords recordTypes)
    (hfields : DistinctFields recordTypes) (hnames : DistinctNames args) (j : JValue) :
    ((∀ jsonMap args', StandsInArgs recordTypes j args jsonMap args' →
        HasDeclaredKeys jsonMap args') →
      SameOutcome (jsonToIvalues serde j args recordTypes)
        (jsonToIvalues serde (posArgs recordTypes j args) args recordTypes)) ∧
    (∀ jsonMap args', StandsInArgs recordTypes j args jsonMap args' →
      HasOtherKeys jsonMap args' →
        ∃ e, jsonToIvalues serde j args recordTypes = .error (.error e)) ∧
    (args = [] → ∀ empty ∈ [JValue.null, .array [], .object []],
      jsonToIvalues serde empty args recordTypes = .ok []) := by
  have hreturns : ∀ j, jsonToIvalues serde j args recordTypes ≠ .error .panicked :=
    fun j => jsonToIvalues_ne_panicked hne j args
  refine ⟨fun hdeclared => ?_, fun jsonMap args' hstands hother => ?_, ?_⟩
  · exact sameOutcome_of_sameOk (jsonToIvalues_agree hfields hnames hdeclared) (hreturns _)
      (hreturns _)
  · cases hresult : jsonToIvalues serde j args recordTypes with
    | ok vs => exact absurd hother (jsonToIvalues_names hfields hnames hresult hstands)
    | error e =>
      cases e with
      | error e => exact ⟨e, rfl⟩
      | panicked => exact absurd hresult (hreturns j)
  · rintro rfl empty hempty
    simp only [List.mem_cons, List.not_mem_nil, or_false] at hempty
    rcases hempty with rfl | rfl | rfl
    · rfl
    · show jsonArrayToIvalues serde recordTypes [] [] = .ok []
      rw [jsonArrayToIvalues, if_neg (by simp), zippedToIvalues.eq_def]
    · show jsonMapToIvalues serde recordTypes [] [] 0 = .ok []
      rw [jsonMapToIvalues, if_pos rfl]

/-- `{"data": [1], "tag": "t"}`. -/
def blobObject : List (String × JValue) :=
  [("data", .array [.number (.posInt 1)]), ("tag", .string "t")]

theorem blobObject_declared {jsonMap : List (String × JValue)} {args : List FunctionArg}
    (h : StandsInArgs blobTypes (.object [("blob", .object blobObject)]) [⟨"blob", .record 6⟩]
      jsonMap args) : HasDeclaredKeys jsonMap args := by
  cases h with
  | here => exact ⟨by decide, by simp [argNames]⟩
  | named harg hmember hstands =>
    cases List.mem_singleton.mp harg
    cases hmember
    cases hstands with
    | record hrecord hstands =>
      rw [blobTypes_lookup hrecord] at hstands
      cases hstands with
      | here => exact ⟨by decide, by simp [blobObject, argNames, fieldArgs, or_comm]⟩
      | named harg _ hstands =>
        simp only [fieldArgs, List.map_cons, List.map_nil, List.mem_cons, List.not_mem_nil,
          or_false] at harg
        rcases harg with rfl | rfl
        · cases hstands
        · cases hstands

/-- `{"blob": {"data": [1], "tag": "t"}}` and `[["t", [1]]]`. -/
theorem named_positional_agree_blob :
    SameOutcome
      (jsonToIvalues plainSerde (.object [("blob", .object blobObject)]) [⟨"blob", .record 6⟩]
        blobTypes)
      (jsonToIvalues plainSerde (.array [.array [.string "t", .array [.number (.posInt 1)]]])
        [⟨"blob", .record 6⟩] blobTypes) := by
  have hpos : posArgs blobTypes (.object [("blob", .object blobObject)]) [⟨"blob", .record 6⟩] =
      .array [.array [.string "t", .array [.number (.posInt 1)]]] := by
    have hblob : blobTypes.lookup 6 =
        some ⟨"Blob", [⟨"tag", .string⟩, ⟨"data", .byteArray⟩]⟩ := AList.lookup_insert _
    have hdata : posMembers blobTypes blobObject [⟨"data", .byteArray⟩] =
        [.array [.number (.posInt 1)]] := by
      refine (posMembers_cons rfl []).trans ?_
      rw [posMembers, posValue_byteArray]
    have htag : posMembers blobTypes blobObject [⟨"tag", .string⟩, ⟨"data", .byteArray⟩] =
        [.string "t", .array [.number (.posInt 1)]] := by
      refine (posMembers_cons rfl _).trans ?_
      rw [hdata, posValue_scalar blobTypes _ rfl]
    have houter : posMembers blobTypes [("blob", .object blobObject)] [⟨"blob", .record 6⟩] =
        [.array [.string "t", .array [.number (.posInt 1)]]] := by
      refine (posMembers_cons rfl []).trans ?_
      rw [posMembers, posValue_record blobTypes hblob, posArgs]
      exact congrArg (fun members => [JValue.array members]) htag
    rw [posArgs, houter]
  rw [← hpos]
  refine (named_positional_agree ?_ ?_ ?_ _).1 fun _ _ => blobObject_declared
  · intro id recordType h
    rw [blobTypes_lookup h]
    simp
  · intro id recordType h
    rw [blobTypes_lookup h]
    show (["tag", "data"] : List String).Nodup
    decide
  · show (["blob"] : List String).Nodup
    decide

end Marine.Json
