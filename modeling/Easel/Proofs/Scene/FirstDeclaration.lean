import Easel.Proofs.Scene.Declarations

/-! Tables of names as dictionaries in which the first declaration of a name counts. A run of calls
declares names in a table that is empty at first, and each call may be refused. The table then says
of a name what its first call said, and it lists the first calls in their order. -/

namespace Easel.Declarations

variable {β : Type} {t : Declarations β} {call first : Declaration β} {name : String}

/-- Declares a name in a table that is changed in place: first the index, where the name gets the
place that its entry is going to have, and then the entries. The answer comes with the table that is
left behind. -/
def declareInPlace (t : Declarations β) (call : Declaration β) :
    Except Position Unit × Declarations β :=
  match t.find? call.name with
  | some first => (.error first.position, t)
  | none =>
    let indexed := { t with index := (call.name, t.size) :: t.index }
    (.ok (), { indexed with entries := indexed.entries.push call })

/-- The table that a call leaves behind, whether or not it is refused. -/
def after (t : Declarations β) (call : Declaration β) : Declarations β := (t.declareInPlace call).2

/-- The table that a list of calls leaves behind, from an empty one on. -/
def ofCalls (calls : List (Declaration β)) : Declarations β := calls.foldl after empty

/-- The first of some calls with a name. -/
def firstCall? (calls : List (Declaration β)) (name : String) : Option (Declaration β) :=
  calls.find? fun call => call.name == name

/-! ### One call -/

theorem declareInPlace_of_taken (h : t.find? call.name = some first) :
    t.declareInPlace call = (.error first.position, t) := by
  rw [declareInPlace, h]

theorem declareInPlace_of_fresh (h : t.find? call.name = none) :
    t.declareInPlace call = (.ok (), t.add call.name call.value call.position) := by
  rw [declareInPlace, h]
  rfl

theorem after_of_taken (h : t.find? call.name = some first) : t.after call = t := by
  rw [after, declareInPlace_of_taken h]

theorem after_of_fresh (h : t.find? call.name = none) :
    t.after call = t.add call.name call.value call.position := by
  rw [after, declareInPlace_of_fresh h]

/-- A table that is changed in place gives the answer of a table that is copied, and it becomes the
copy if there is one. -/
theorem declareInPlace_eq (t : Declarations β) (call : Declaration β) :
    t.declareInPlace call =
      ((t.declare call.name call.value call.position).map fun _ => (),
        (t.declare call.name call.value call.position).toOption.getD t) := by
  cases hfound : t.find? call.name with
  | none =>
    rw [declareInPlace_of_fresh hfound, declare_of_fresh hfound]
    rfl
  | some first =>
    rw [declareInPlace_of_taken hfound, declare_of_taken hfound]
    rfl

theorem Agrees.after (h : t.Agrees) (call : Declaration β) : (t.after call).Agrees := by
  cases hfound : t.find? call.name with
  | none =>
    rw [after_of_fresh hfound]
    exact h.add hfound
  | some first =>
    rw [after_of_taken hfound]
    exact h

/-- A call says something about its own name only, and only if nothing is said about it yet. -/
theorem Agrees.find?_after (h : t.Agrees) (call : Declaration β) (name : String) :
    (t.after call).find? name =
      (t.find? name).or (if call.name = name then some call else none) := by
  rcases Decidable.em (call.name = name) with rfl | hname
  · cases hfound : t.find? call.name with
    | none => rw [after_of_fresh hfound, h.find?_add, if_pos rfl, if_pos rfl, Option.none_or]
    | some first => rw [after_of_taken hfound, hfound, Option.some_or]
  · rw [if_neg hname, Option.or_none]
    cases hfound : t.find? call.name with
    | none => rw [after_of_fresh hfound, h.find?_add, if_neg (Ne.symm hname)]
    | some first => rw [after_of_taken hfound]

/-! ### A run of calls -/

theorem Agrees.foldl_after (h : t.Agrees) (calls : List (Declaration β)) :
    (calls.foldl Declarations.after t).Agrees := by
  induction calls generalizing t with
  | nil => exact h
  | cons call calls ih => exact ih (h.after call)

theorem Agrees.find?_foldl_after (h : t.Agrees) (calls : List (Declaration β)) (name : String) :
    (calls.foldl Declarations.after t).find? name = (t.find? name).or (firstCall? calls name) := by
  induction calls generalizing t with
  | nil => exact Option.or_none.symm
  | cons call calls ih =>
    have hfirst : firstCall? (call :: calls) name =
        (if call.name = name then some call else none).or (firstCall? calls name) := by
      rw [firstCall?, List.find?_cons]
      rcases Decidable.em (call.name = name) with hname | hname
      · rw [if_pos hname, beq_iff_eq.mpr hname, Option.some_or]
      · rw [if_neg hname, beq_false_of_ne hname, Option.none_or]
        rfl
    rw [List.foldl_cons, ih (h.after call), h.find?_after, hfirst, Option.or_assoc]

/-- Behind the entries of a table, a run adds the first calls of the names that are new to it. -/
theorem Agrees.entries_foldl_after (h : t.Agrees) (calls : List (Declaration β)) :
    (calls.foldl Declarations.after t).entries.toList = t.entries.toList ++
      (calls.filter fun call => (t.find? call.name).isNone).eraseDupsBy
        fun call call' => call.name == call'.name := by
  induction calls generalizing t with
  | nil => exact (List.append_nil _).symm
  | cons call calls ih =>
    rw [List.foldl_cons, ih (h.after call)]
    cases hfound : t.find? call.name with
    | some first =>
      rw [after_of_taken hfound, List.filter_cons_of_neg (by simp [hfound])]
    | none =>
      have hnew (other : Declaration β) : ((t.after call).find? other.name).isNone =
          (decide ((other.name == call.name) = false) && (t.find? other.name).isNone) := by
        rw [after_of_fresh hfound, h.find?_add]
        rcases Decidable.em (other.name = call.name) with hname | hname
        · simp [hname]
        · simp [hname]
      have hentries : (t.after call).entries.toList = t.entries.toList ++ [call] := by
        rw [after_of_fresh hfound]
        exact Array.toList_push
      rw [List.filter_cons_of_pos (by simp [hfound]), List.eraseDupsBy_cons, List.filter_filter,
        hentries, List.append_assoc, List.singleton_append]
      simp only [hnew]

/-- The names of the first calls are the names of all calls, each of them once. -/
theorem map_name_eraseDupsBy (calls : List (Declaration β)) :
    (calls.eraseDupsBy fun call call' => call.name == call'.name).map (·.name) =
      (calls.map (·.name)).eraseDups := by
  -- what is left behind the first call is shorter, but it is not the tail of the list
  induction hlength : calls.length using Nat.strongRecOn generalizing calls with
  | ind n ih =>
  cases calls with
  | nil => rfl
  | cons call calls =>
    have hothers : (calls.map (·.name)).filter (fun name => !name == call.name) =
        (calls.filter fun other => decide ((other.name == call.name) = false)).map (·.name) := by
      rw [List.filter_map]
      congr 2
      funext other
      show (!(other.name == call.name)) = _
      cases other.name == call.name <;> rfl
    have hlt :
        (calls.filter fun other => decide ((other.name == call.name) = false)).length < n := by
      rw [← hlength]
      exact Nat.lt_succ_of_le (List.length_filter_le _ _)
    rw [List.eraseDupsBy_cons, List.map_cons, List.map_cons, List.eraseDups_cons, hothers,
      ih _ hlt _ rfl]

/-! ### From an empty table on -/

theorem agrees_ofCalls (calls : List (Declaration β)) : (ofCalls calls).Agrees :=
  agrees_empty.foldl_after calls

theorem find?_ofCalls (calls : List (Declaration β)) (name : String) :
    (ofCalls calls).find? name = firstCall? calls name :=
  agrees_empty.find?_foldl_after calls name

theorem entries_ofCalls (calls : List (Declaration β)) : (ofCalls calls).entries.toList =
    calls.eraseDupsBy fun call call' => call.name == call'.name := by
  have hnew :
      calls.filter (fun call => ((empty : Declarations β).find? call.name).isNone) = calls :=
    List.filter_eq_self.mpr fun _ _ => rfl
  rw [ofCalls, agrees_empty.entries_foldl_after, hnew]
  rfl

theorem names_ofCalls (calls : List (Declaration β)) :
    (ofCalls calls).names = (calls.map (·.name)).eraseDups := by
  rw [names, entries_ofCalls, map_name_eraseDupsBy]

theorem firstCall?_eq_none_iff {calls : List (Declaration β)} :
    firstCall? calls name = none ↔ ∀ call ∈ calls, call.name ≠ name := by
  simp [firstCall?]

/-- What a table says after some calls: it takes the names that none of them had, it finds the first
call with a name, and it lists the first calls in their order. -/
structure Records (t : Declarations β) (calls : List (Declaration β)) : Prop where
  inPlace : ∀ call : Declaration β, t.declareInPlace call =
    ((t.declare call.name call.value call.position).map fun _ => (),
      (t.declare call.name call.value call.position).toOption.getD t)
  fresh : ∀ call : Declaration β,
    (∃ next, t.declare call.name call.value call.position = .ok next) ↔
      ∀ earlier ∈ calls, earlier.name ≠ call.name
  /-- A call that is refused gets the position of the first one with its name, and the table stays
  as it is. -/
  taken : ∀ call first : Declaration β, firstCall? calls call.name = some first →
    t.declare call.name call.value call.position = .error first.position ∧
    t.declareInPlace call = (.error first.position, t)
  get : ∀ name, t.get? name = (firstCall? calls name).map (·.value)
  position : ∀ name, t.position? name = (firstCall? calls name).map (·.position)
  entries : t.entries.toList = calls.eraseDupsBy fun call call' => call.name == call'.name
  names : t.names = (calls.map (·.name)).eraseDups
  distinct : t.names.Nodup
  size : t.size = (calls.map (·.name)).eraseDups.length
  agrees : t.Agrees

/-- In a table the first declaration of a name counts, whatever is declared in which order. -/
theorem records_ofCalls (calls : List (Declaration β)) : (ofCalls calls).Records calls := by
  have hagrees := agrees_ofCalls calls
  have hnames := names_ofCalls calls
  refine ⟨declareInPlace_eq _, fun call => ?_, fun call first hfirst => ?_, fun name => ?_,
    fun name => ?_, entries_ofCalls calls, hnames, hagrees.names_nodup, ?_, hagrees⟩
  · rw [← firstCall?_eq_none_iff, ← find?_ofCalls]
    cases hfound : (ofCalls calls).find? call.name with
    | none => exact iff_of_true ⟨_, declare_of_fresh hfound⟩ rfl
    | some first =>
      rw [declare_of_taken hfound]
      exact iff_of_false nofun nofun
  · rw [← find?_ofCalls] at hfirst
    exact ⟨declare_of_taken hfirst, declareInPlace_of_taken hfirst⟩
  · rw [get?, find?_ofCalls]
  · rw [position?, find?_ofCalls]
  · rw [← hnames, Declarations.names, List.length_map]
    rfl

end Easel.Declarations
