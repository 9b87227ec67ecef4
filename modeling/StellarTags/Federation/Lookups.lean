import Mathlib.Data.List.Sort
import StellarTags.Library.Freshness
import StellarTags.Library.Runs

/-! Federation lookups through the cache, beside the writers of the users' addresses. -/

namespace StellarTags.Federation

open Library.Freshness Library.Runs

section System

def toLowerCase (s : String) : String := .ofList (s.toList.map Char.toLower)

abbrev Username := {name : String // toLowerCase name = name}

abbrev Address := {address : String // address ≠ ""}

structure User where
  username : Username
  address : Address
  memoType : Option String := none
  memo : Option String := none
  isPrimary : Bool := false
  createdAt : ℕ := 0
  flaggedAt : Option ℕ := none
  deletedAt : Option ℕ := none
  deriving DecidableEq

structure Response where
  stellar_address : String
  account_id : String
  /-- The type, and the memo. -/
  memo : Option (String × Option String)
  deriving DecidableEq, Repr

/-- `DOMAIN` and the users that are known without the database. -/
structure Host where
  domain : String
  userDatabase : Username → Option Address
  isValidEd25519PublicKey : String → Bool

inductive Query
  | id (address : String)
  | name (queryName : Username)
  deriving DecidableEq

structure Transfer where
  username : Username
  oldAddress : String
  newAddress : String

/-- Where a task awaits: a lookup its cache, the database, or the end of its write to the cache; an
operation the database, the signatures or the cache. -/
inductive Phase
  | idle
  | getting (query : Query)
  | fetching (query : Query)
  | storing (query : Query) (response : Response)
  | changing (username : Username) (newAddress : Address) (invalidated : Option String)
  | invalidating (username : Username) (old : Address) (invalidated : Option String)
  | reading (transfer : Transfer)
  | verifying (transfer : Transfer)
  | updating (transfer : Transfer) (newAddress : Address)
  | done (error : Option String)

structure World where
  users : List User
  cache : String → Option Response := fun _ => none
  tasks : ℕ → Phase := fun _ => .idle
  history : List (Event Username String) := []

inductive Move
  | lookup (i : ℕ) (query : Query)
  | change (i : ℕ) (username : Username) (newAddress : Address) (invalidated : Option String)
  | transfer (i : ℕ) (transfer : Transfer)
  | resume (i : ℕ)
  | fail (i : ℕ) (error : String)
  | expire (key : String)

def buildFederationCacheKey (type value : String) : String :=
  "federation:" ++ type ++ ":" ++ toLowerCase value

def Query.key : Query → String
  | .id address => buildFederationCacheKey "id" address
  | .name queryName => buildFederationCacheKey "name" queryName.val

def User.response (row : User) (stellarAddress : String) : Response where
  stellar_address := stellarAddress
  account_id := row.address.val
  memo := row.memoType.map fun memoType => (memoType, row.memo)

/-- `PRIMARY_USERNAME_ORDER`. -/
def User.before (a b : User) : Prop :=
  a.isPrimary = true ∧ b.isPrimary = false ∨ a.isPrimary = b.isPrimary ∧ a.createdAt ≤ b.createdAt

instance (a b : User) : Decidable (a.before b) := by
  unfold User.before
  infer_instance

variable (host : Host)

def resolveFederationId (users : List User) (queryValue : String) :
    Except String (Option Response) :=
  let rows := users.filter fun row =>
    toLowerCase row.address.val = toLowerCase queryValue ∧ row.deletedAt = none
  match (rows.insertionSort User.before).head? with
  | none => .ok none
  | some row =>
    if row.flaggedAt.isSome then .error "Address is blocked"
    else .ok (some (row.response (row.username.val ++ "*" ++ host.domain)))

def findLive (users : List User) (username : Username) : Option User :=
  users.find? fun row => row.username = username ∧ row.deletedAt = none

def resolveFederationName (users : List User) (queryName : Username) :
    Except String (Option Response) :=
  match findLive users queryName, host.userDatabase queryName with
  | some row, _ =>
    if row.flaggedAt.isSome then .error "Address is blocked"
    else .ok (some (row.response row.address.val))
  | none, some address => .ok (some ⟨address.val, address.val, none⟩)
  | none, none => .ok none

def resolve (users : List User) : Query → Except String (Option Response)
  | .id address => resolveFederationId host users address
  | .name queryName => resolveFederationName host users queryName

/-- The username and the address that a response to a query binds to each other. -/
def Binds (query : Query) (response : Response) (username : Username) (address : String) : Prop :=
  response.account_id = address ∧
    match query with
    | .id _ => response.stellar_address = username.val ++ "*" ++ host.domain
    | .name queryName => username = queryName

namespace World

variable (w : World)

def setTask (i : ℕ) (phase : Phase) : World :=
  { w with tasks := Function.update w.tasks i phase }

def note (event : Event Username String) : World := { w with history := w.history ++ [event] }

/-- The rows of the username get the address, which was the other. -/
def setAddress (i : ℕ) (username : Username) (old new : Address) : World :=
  { w with
    users := w.users.map fun (row : User) =>
      if row.username = username then { row with address := new } else row }.note
    (.bound i username old.val new.val)

def setEx (key : String) (response : Response) : World :=
  { w with cache := Function.update w.cache key (some response) }

def del (keys : List String) : World :=
  { w with cache := fun key => if key ∈ keys then none else w.cache key }

def answer (i : ℕ) (query : Query) (response : Response) : World :=
  w.note (.answered i (Binds host query response))

end World

def invalidatedKeys (address : Option String) (username : Username) : List String :=
  (address.filter (· ≠ "")).toList.map (buildFederationCacheKey "id") ++
    if username.val = "" then [] else [buildFederationCacheKey "name" username.val]

/-- What `transferAccount` checks before it asks for the signatures. -/
def checkTransfer (users : List User) (transfer : Transfer) : Except String Unit :=
  if transfer.username.val = "" then .error "Username is required"
  else if transfer.oldAddress = "" ∨ transfer.newAddress = "" then
    .error "Both oldAddress and newAddress are required"
  else if ¬ host.isValidEd25519PublicKey transfer.newAddress then
    .error "Invalid Stellar Public Key format for new address"
  else
    match findLive users transfer.username with
    | none => .error "User not found"
    | some user =>
      if user.address.val ≠ transfer.oldAddress then
        .error "Old address does not match current record"
      else .ok ()

/-- An await of a task ends; the writes of an address are to a row that is there. -/
def World.resume (w : World) (i : ℕ) : World :=
  match w.tasks i with
  | .idle | .done _ => w
  | .getting query =>
    match w.cache query.key with
    | some response => (w.answer host i query response).setTask i (.done none)
    | none => w.setTask i (.fetching query)
  | .fetching query =>
    match resolve host w.users query with
    | .error error => w.setTask i (.done (some error))
    | .ok none => w.setTask i (.done none)
    | .ok (some response) => (w.answer host i query response).setTask i (.storing query response)
  | .storing query response => (w.setEx query.key response).setTask i (.done none)
  | .changing username newAddress invalidated =>
    match findLive w.users username with
    | none => w.setTask i (.done (some "Record to update not found"))
    | some row =>
      (w.setAddress i username row.address newAddress).setTask i
        (.invalidating username row.address invalidated)
  | .invalidating username _ invalidated =>
    ((w.del (invalidatedKeys invalidated username)).note (.completed i)).setTask i (.done none)
  | .reading transfer =>
    match checkTransfer host w.users transfer with
    | .error error => w.setTask i (.done (some error))
    | .ok () => w.setTask i (.verifying transfer)
  | .verifying transfer =>
    if h : transfer.newAddress ≠ "" then w.setTask i (.updating transfer ⟨transfer.newAddress, h⟩)
    else w.setTask i (.done (some "Both oldAddress and newAddress are required"))
  | .updating transfer newAddress =>
    match findLive w.users transfer.username with
    | none => w.setTask i (.done (some "Record to update not found"))
    | some row =>
      ((w.setAddress i transfer.username row.address newAddress).note (.completed i)).setTask i
        (.done none)

/-- The database, or what verifies signatures, fails; Redis does not. -/
def World.fail (w : World) (i : ℕ) (error : String) : World :=
  match w.tasks i with
  | .fetching _ | .changing _ _ _ | .reading _ | .verifying _ | .updating _ _ =>
    w.setTask i (.done (some error))
  | _ => w

def World.begin (w : World) (i : ℕ) (phase : Phase) : World :=
  match w.tasks i with
  | .idle => w.setTask i phase
  | _ => w

def step (move : Move) (w : World) : World :=
  match move with
  | .lookup i query =>
    match w.tasks i with
    | .idle => (w.note (.started i)).setTask i (.getting query)
    | _ => w
  | .change i username newAddress invalidated =>
    w.begin i (.changing username newAddress invalidated)
  | .transfer i transfer => w.begin i (.reading transfer)
  | .resume i => w.resume host i
  | .fail i error => w.fail i error
  | .expire key => { w with cache := Function.update w.cache key none }

end System

section Keys

variable {host : Host} {query other : Query} {response : Response} {username : Username}
  {address : String} {users : List User}

lemma key_name_injective {queryName : Username} (h : other.key = (Query.name queryName).key) :
    other = .name queryName := by
  cases other with
  | id address =>
    have hchars := congrArg String.toList h
    simp [Query.key, buildFederationCacheKey] at hchars
  | name otherName =>
    have hchars := congrArg String.toList h
    simp only [Query.key, buildFederationCacheKey, String.toList_append, List.append_cancel_left_eq] at hchars
    have hlower := String.toList_inj.mp hchars
    rw [otherName.property, queryName.property] at hlower
    rw [Subtype.ext hlower]

/-- What is cached under one key is of one query, but for the case of an address. -/
lemma binds_of_key (h : other.key = query.key) :
    Binds host other response username address ↔ Binds host query response username address := by
  cases query with
  | name queryName =>
    rw [key_name_injective h]
  | id queryValue =>
    cases other with
    | id otherValue => exact Iff.rfl
    | name otherName =>
      have hsame := key_name_injective h.symm
      cases hsame

lemma findLive_eq {row : User} (h : findLive users username = some row) :
    row ∈ users ∧ row.username = username ∧ row.deletedAt = none := by
  have hrow := List.find?_some h
  rw [decide_eq_true_eq] at hrow
  exact ⟨List.mem_of_find?_eq_some h, hrow⟩

lemma resolve_binds (h : resolve host users query = .ok (some response))
    (hbinds : Binds host query response username address) :
    (∃ row ∈ users, row.deletedAt = none ∧ row.username = username ∧ row.address.val = address) ∨
      findLive users username = none := by
  obtain ⟨haccount, hquery⟩ := hbinds
  cases query with
  | id queryValue =>
    simp only [resolve, resolveFederationId] at h
    split at h
    · cases h
    · rename_i row hrow
      split_ifs at h
      obtain rfl := Option.some.inj (Except.ok.inj h)
      have hmem := (List.mem_insertionSort _).mp (List.mem_of_mem_head? hrow)
      rw [List.mem_filter, decide_eq_true_eq] at hmem
      refine .inl ⟨row, hmem.1, hmem.2.2, ?_, haccount⟩
      have hchars := congrArg String.toList hquery
      simp only [User.response, String.toList_append, List.append_cancel_right_eq] at hchars
      exact Subtype.ext (String.toList_inj.mp hchars)
  | name queryName =>
    obtain rfl : username = queryName := hquery
    simp only [resolve, resolveFederationName] at h
    split at h
    · rename_i row hrow
      split_ifs at h
      obtain rfl := Option.some.inj (Except.ok.inj h)
      obtain ⟨hmem, hname, hlive⟩ := findLive_eq hrow
      exact .inl ⟨row, hmem, hlive, hname, haccount⟩
    · rename_i hnone _
      exact .inr hnone
    · cases h

end Keys

section Coherence

variable {host : Host} {w : World} {i : ℕ} {query : Query} {response : Response} {row : User}
  {username : Username} {old new : Address} {phase : Phase}

/-- No pair that the cache or the database has is retired. -/
structure Coherent (host : Host) (w : World) : Prop where
  fresh : Fresh w.history
  cached : ∀ key response, w.cache key = some response → ∃ query : Query, query.key = key ∧
    ∀ username address, Binds host query response username address →
      ¬ Retired w.history username address
  live : ∀ row ∈ w.users, row.deletedAt = none →
    replacer row.username row.address.val w.history = none
  absent : ∀ username, findLive w.users username = none → ∀ address,
    replacer username address w.history = none

/-- What operations have replaced they invalidate before they complete, and then they are done. -/
structure Tasked (w : World) : Prop where
  completed : ∀ i, .completed i ∈ w.history → ∃ error, w.tasks i = .done error
  replaced : ∀ i username address, replacer username address w.history = some i →
    .completed i ∈ w.history ∨
      ∃ old invalidated, w.tasks i = .invalidating username old invalidated ∧ old.val = address

lemma Coherent.resolved (h : Coherent host w) (hresolve : resolve host w.users query = .ok (some response))
    (username : Username) (address : String) (hbinds : Binds host query response username address) :
    ¬ Retired w.history username address := by
  rintro ⟨write, hreplacer, -⟩
  obtain ⟨row, hrow, hlive, rfl, rfl⟩ | hnone := resolve_binds hresolve hbinds
  · rw [h.live row hrow hlive] at hreplacer
    cases hreplacer
  · rw [h.absent username hnone] at hreplacer
    cases hreplacer

lemma Coherent.setTask (h : Coherent host w) (i : ℕ) (phase : Phase) :
    Coherent host (w.setTask i phase) := ⟨h.fresh, h.cached, h.live, h.absent⟩

lemma Coherent.started (h : Coherent host w) (i : ℕ) : Coherent host (w.note (.started i)) where
  fresh := h.fresh.append fun _ _ hevent => nomatch hevent
  cached key response hkey := by
    simpa [World.note] using h.cached key response hkey
  live row hrow hlive := by simpa [World.note] using h.live row hrow hlive
  absent username hnone address := by simpa [World.note] using h.absent username hnone address

lemma Coherent.answer (h : Coherent host w) (i : ℕ)
    (hbinds : ∀ username address, Binds host query response username address →
      ¬ Retired w.history username address) : Coherent host (w.answer host i query response) where
  fresh := by
    apply h.fresh.append
    intro read binds hevent key value hkey
    obtain ⟨-, rfl⟩ := Event.answered.inj hevent
    exact hbinds key value hkey
  cached key response hkey := by
    simpa [World.answer, World.note] using h.cached key response hkey
  live row hrow hlive := by simpa [World.answer, World.note] using h.live row hrow hlive
  absent username hnone address := by
    simpa [World.answer, World.note] using h.absent username hnone address

lemma Coherent.setEx (h : Coherent host w)
    (hbinds : ∀ username address, Binds host query response username address →
      ¬ Retired w.history username address) : Coherent host (w.setEx query.key response) where
  fresh := h.fresh
  cached key other hkey := by
    by_cases hsame : key = query.key
    · subst hsame
      simp only [World.setEx, Function.update_self, Option.some.injEq] at hkey
      subst hkey
      exact ⟨query, rfl, hbinds⟩
    · simp only [World.setEx, Function.update_of_ne hsame] at hkey
      exact h.cached key other hkey
  live := h.live
  absent := h.absent

lemma Coherent.uncache (h : Coherent host w) {cache : String → Option Response}
    (hcache : ∀ key response, cache key = some response → w.cache key = some response) :
    Coherent host { w with cache := cache } :=
  ⟨h.fresh, fun key response hkey => h.cached key response (hcache key response hkey), h.live,
    h.absent⟩

lemma Coherent.completed (h : Coherent host w) (i : ℕ)
    (hcached : ∀ (query : Query) response, w.cache query.key = some response →
      ∀ username address, Binds host query response username address →
        replacer username address w.history ≠ some i) :
    Coherent host (w.note (.completed i)) where
  fresh := h.fresh.append fun _ _ hevent => nomatch hevent
  cached key response hkey := by
    obtain ⟨query, rfl, hbinds⟩ := h.cached key response hkey
    refine ⟨query, rfl, fun username address hpair hretired => ?_⟩
    obtain hretired | hreplacer := retired_completed.mp hretired
    · exact hbinds username address hpair hretired
    · exact hcached query response hkey username address hpair hreplacer
  live row hrow hlive := by simpa [World.note] using h.live row hrow hlive
  absent username hnone address := by simpa [World.note] using h.absent username hnone address

lemma findLive_setAddress (other : Username) :
    findLive (w.setAddress i username old new).users other = none → findLive w.users other = none := by
  simp only [findLive, World.setAddress, World.note, List.find?_eq_none, List.mem_map,
    forall_exists_index, and_imp, forall_apply_eq_imp_iff₂, decide_eq_true_eq]
  intro hnone row hrow hother
  apply hnone row hrow
  split_ifs <;> exact hother

lemma Coherent.setAddress (h : Coherent host w) (hi : .completed i ∉ w.history)
    (hrow : findLive w.users username = some row) :
    Coherent host (w.setAddress i username row.address new) where
  fresh := h.fresh.append fun _ _ hevent => nomatch hevent
  cached key response hkey := by
    obtain ⟨query, hquery, hbinds⟩ := h.cached key response hkey
    exact ⟨query, hquery, fun other address hpair =>
      not_retired_bound (hbinds other address hpair) hi⟩
  live other hother hlive := by
    obtain ⟨before, hbefore, rfl⟩ := List.mem_map.mp hother
    simp only [World.setAddress, World.note] at hlive ⊢
    by_cases hname : before.username = username
    · simp only [hname, if_true]
      exact replacer_bound_self
    · simp only [hname, if_false] at hlive ⊢
      rw [replacer_bound_of_ne (Ne.symm hname)]
      exact h.live before hbefore hlive
  absent other hnone address := by
    have hbefore := findLive_setAddress other hnone
    have hname : username ≠ other := by
      rintro rfl
      rw [hrow] at hbefore
      cases hbefore
    simp only [World.setAddress, World.note]
    rw [replacer_bound_of_ne hname]
    exact h.absent other hbefore address

end Coherence

section Tasks

variable {host : Host} {w : World} {i : ℕ} {query : Query} {response : Response} {row : User}
  {username : Username} {old new : Address} {phase : Phase}

lemma Tasked.not_completed (h : Tasked w) (hphase : ∀ error, w.tasks i ≠ .done error) :
    .completed i ∉ w.history := by
  intro hcompleted
  obtain ⟨error, herror⟩ := h.completed i hcompleted
  exact hphase error herror

lemma Tasked.replacer_ne (h : Tasked w) (hphase : ∀ error, w.tasks i ≠ .done error)
    (hinvalidating : ∀ username old invalidated, w.tasks i ≠ .invalidating username old invalidated)
    (username : Username) (address : String) : replacer username address w.history ≠ some i := by
  intro hreplacer
  obtain hcompleted | ⟨old, invalidated, hphase', -⟩ := h.replaced i username address hreplacer
  · exact h.not_completed hphase hcompleted
  · exact hinvalidating username old invalidated hphase'

lemma Tasked.setTask (h : Tasked w) (phase : Phase) (hphase : ∀ error, w.tasks i ≠ .done error)
    (hinvalidating : ∀ username old invalidated,
      w.tasks i ≠ .invalidating username old invalidated) : Tasked (w.setTask i phase) where
  completed j hcompleted := by
    have hne : j ≠ i := by
      rintro rfl
      exact h.not_completed hphase hcompleted
    simp only [World.setTask, Function.update_of_ne hne]
    exact h.completed j hcompleted
  replaced j username address hreplacer := by
    have hne : j ≠ i := by
      rintro rfl
      exact h.replacer_ne hphase hinvalidating username address hreplacer
    simp only [World.setTask, Function.update_of_ne hne]
    exact h.replaced j username address hreplacer

lemma Tasked.started (h : Tasked w) (i : ℕ) : Tasked (w.note (.started i)) where
  completed j hcompleted := h.completed j (by simpa [World.note] using hcompleted)
  replaced j username address hreplacer := by
    simpa [World.note] using h.replaced j username address (by simpa [World.note] using hreplacer)

lemma Tasked.answer (h : Tasked w) (host : Host) (i : ℕ) (query : Query) (response : Response) :
    Tasked (w.answer host i query response) where
  completed j hcompleted := h.completed j (by simpa [World.answer, World.note] using hcompleted)
  replaced j username address hreplacer := by
    simpa [World.answer, World.note] using
      h.replaced j username address (by simpa [World.answer, World.note] using hreplacer)

lemma replacer_setAddress (h : Tasked w) (hphase : ∀ error, w.tasks i ≠ .done error)
    (hinvalidating : ∀ username old invalidated, w.tasks i ≠ .invalidating username old invalidated)
    {j : ℕ} {other : Username} {address : String}
    (hreplacer : replacer other address (w.setAddress i username old new).history = some j) :
    replacer other address w.history = some j ∧ j ≠ i ∨
      j = i ∧ other = username ∧ address = old.val ∧ address ≠ new.val := by
  simp only [World.setAddress, World.note] at hreplacer
  have hold (hsome : replacer other address w.history = some j) :
      replacer other address w.history = some j ∧ j ≠ i := by
    refine ⟨hsome, ?_⟩
    rintro rfl
    exact h.replacer_ne hphase hinvalidating other address hsome
  by_cases hname : username = other
  · subst hname
    by_cases hnew : new.val = address
    · rw [← hnew, replacer_bound_self] at hreplacer
      cases hreplacer
    · rw [replacer_bound hnew] at hreplacer
      split_ifs at hreplacer with haddress
      · cases hfound : replacer username address w.history with
        | none =>
          rw [hfound, Option.none_or] at hreplacer
          exact .inr ⟨(Option.some.inj hreplacer).symm, rfl, haddress.symm, Ne.symm hnew⟩
        | some found =>
          rw [hfound, Option.some_or] at hreplacer
          exact .inl (hfound ▸ hold (hfound.trans hreplacer))
      · exact .inl (hold hreplacer)
  · rw [replacer_bound_of_ne hname] at hreplacer
    exact .inl (hold hreplacer)

lemma Tasked.changed (h : Tasked w) (hphase : ∀ error, w.tasks i ≠ .done error)
    (hinvalidating : ∀ username old invalidated, w.tasks i ≠ .invalidating username old invalidated)
    (invalidated : Option String) :
    Tasked ((w.setAddress i username old new).setTask i (.invalidating username old invalidated)) where
  completed j hcompleted := by
    have hbefore : .completed j ∈ w.history := by
      simpa [World.setTask, World.setAddress, World.note] using hcompleted
    have hne : j ≠ i := by
      rintro rfl
      exact h.not_completed hphase hbefore
    simp only [World.setTask, Function.update_of_ne hne]
    exact h.completed j hbefore
  replaced j other address hreplacer := by
    obtain ⟨hold, hne⟩ | ⟨rfl, rfl, rfl, -⟩ := replacer_setAddress h hphase hinvalidating hreplacer
    · simp only [World.setTask, Function.update_of_ne hne]
      obtain hcompleted | htask := h.replaced j other address hold
      · exact .inl (by simpa [World.setAddress, World.note] using hcompleted)
      · exact .inr htask
    · exact .inr ⟨old, invalidated, Function.update_self .., rfl⟩

lemma Tasked.transferred (h : Tasked w) (hphase : ∀ error, w.tasks i ≠ .done error)
    (hinvalidating : ∀ username old invalidated, w.tasks i ≠ .invalidating username old invalidated) :
    Tasked (((w.setAddress i username old new).note (.completed i)).setTask i (.done none)) where
  completed j hcompleted := by
    by_cases hne : j = i
    · subst hne
      exact ⟨none, Function.update_self ..⟩
    · have hcompleted : .completed j ∈ w.history := by
        simpa [World.setTask, World.setAddress, World.note, hne] using hcompleted
      simp only [World.setTask, Function.update_of_ne hne]
      exact h.completed j hcompleted
  replaced j other address hreplacer := by
    simp only [World.setTask, World.note, replacer_completed] at hreplacer
    obtain ⟨hold, hne⟩ | ⟨rfl, -⟩ := replacer_setAddress h hphase hinvalidating hreplacer
    · simp only [World.setTask, Function.update_of_ne hne]
      obtain hcompleted | htask := h.replaced j other address hold
      · exact .inl (by simp [World.setAddress, World.note, hcompleted])
      · exact .inr htask
    · exact .inl (by simp [World.setTask, World.note])

lemma Tasked.invalidated (h : Tasked w) (keys : List String) :
    Tasked (((w.del keys).note (.completed i)).setTask i (.done none)) where
  completed j hcompleted := by
    by_cases hne : j = i
    · subst hne
      exact ⟨none, Function.update_self ..⟩
    · have hcompleted : .completed j ∈ w.history := by
        simpa [World.setTask, World.del, World.note, hne] using hcompleted
      simp only [World.setTask, Function.update_of_ne hne]
      exact h.completed j hcompleted
  replaced j other address hreplacer := by
    simp only [World.setTask, World.note, World.del, replacer_completed] at hreplacer
    by_cases hne : j = i
    · exact .inl (by simp [World.setTask, World.note, hne])
    · simp only [World.setTask, Function.update_of_ne hne]
      obtain hcompleted | htask := h.replaced j other address hreplacer
      · exact .inl (by simp [World.del, World.note, hcompleted])
      · exact .inr htask

end Tasks

section Runs

variable {host : Host} {w : World} {move : Move} {moves : List Move}

/-- A write to the cache lands before an operation that has replaced what it writes completes; and an
operation leaves nothing cached that it has replaced: one that invalidates, under other keys than it
deletes; a transfer, at all. -/
structure Spares (host : Host) (w : World) (move : Move) : Prop where
  stores : ∀ i query response, move = .resume i → w.tasks i = .storing query response →
    ∀ username address, Binds host query response username address →
      ¬ Retired w.history username address
  invalidates : ∀ i username old invalidated, move = .resume i →
    w.tasks i = .invalidating username old invalidated →
      replacer username old.val w.history = some i →
        ∀ (query : Query) response, query.key ∉ invalidatedKeys invalidated username →
          w.cache query.key = some response → ¬ Binds host query response username old.val
  transfers : ∀ i transfer newAddress row, move = .resume i →
    w.tasks i = .updating transfer newAddress → findLive w.users transfer.username = some row →
      row.address ≠ newAddress → ∀ (query : Query) response, w.cache query.key = some response →
        ¬ Binds host query response transfer.username row.address.val

lemma Coherent.resume (h : Coherent host w) (htasked : Tasked w) (i : ℕ)
    (hspares : Spares host w (.resume i)) :
    Coherent host (w.resume host i) ∧ Tasked (w.resume host i) := by
  have htask {phase phase' : Phase} (hphase : w.tasks i = phase)
      (hdone : ∀ error, phase ≠ .done error)
      (hinvalidating : ∀ username old invalidated, phase ≠ .invalidating username old invalidated) :
      Coherent host (w.setTask i phase') ∧ Tasked (w.setTask i phase') :=
    ⟨h.setTask i phase', htasked.setTask phase' (fun error => hphase ▸ hdone error)
      fun username old invalidated => hphase ▸ hinvalidating username old invalidated⟩
  cases hphase : w.tasks i with
  | idle => simpa [World.resume, hphase] using ⟨h, htasked⟩
  | done error => simpa [World.resume, hphase] using ⟨h, htasked⟩
  | getting query =>
    simp only [World.resume, hphase]
    cases hcache : w.cache query.key with
    | none => exact htask hphase (by simp) (by simp)
    | some response =>
      obtain ⟨other, hkey, hbinds⟩ := h.cached query.key response hcache
      refine ⟨(h.answer i fun username address hpair => ?_).setTask i _,
        (htasked.answer host i query response).setTask _ ?_ ?_⟩
      · exact hbinds username address ((binds_of_key hkey).mpr hpair)
      · exact fun error => by simp [World.answer, World.note, hphase]
      · exact fun _ _ _ => by simp [World.answer, World.note, hphase]
  | fetching query =>
    simp only [World.resume, hphase]
    split
    · exact htask hphase (by simp) (by simp)
    · exact htask hphase (by simp) (by simp)
    · rename_i response hresolve
      refine ⟨(h.answer i fun username address hpair => ?_).setTask i _,
        (htasked.answer host i query response).setTask _ ?_ ?_⟩
      · exact h.resolved hresolve username address hpair
      · exact fun error => by simp [World.answer, World.note, hphase]
      · exact fun _ _ _ => by simp [World.answer, World.note, hphase]
  | storing query response =>
    simp only [World.resume, hphase]
    have hstored := h.setEx fun username address hpair =>
      hspares.stores i query response rfl hphase username address hpair
    have hkept : Tasked (w.setEx query.key response) := ⟨htasked.completed, htasked.replaced⟩
    refine ⟨hstored.setTask i _, hkept.setTask _ ?_ ?_⟩
    · exact fun error => by simp [World.setEx, hphase]
    · exact fun _ _ _ => by simp [World.setEx, hphase]
  | changing username newAddress invalidated =>
    simp only [World.resume, hphase]
    cases hrow : findLive w.users username with
    | none => exact htask hphase (by simp) (by simp)
    | some row =>
      have hnew := htasked.not_completed (i := i) (by simp [hphase])
      exact ⟨(h.setAddress hnew hrow).setTask i _,
        htasked.changed (by simp [hphase]) (by simp [hphase]) invalidated⟩
  | invalidating username old invalidated =>
    simp only [World.resume, hphase]
    have hdeleted : Coherent host (w.del (invalidatedKeys invalidated username)) := by
      apply h.uncache
      intro key response hkey
      split_ifs at hkey
      exact hkey
    refine ⟨(hdeleted.completed i fun query response hcache other address hpair hreplacer => ?_).setTask
      i _, htasked.invalidated _⟩
    have hnew := htasked.not_completed (i := i) (by simp [hphase])
    simp only [World.del] at hcache hreplacer
    split_ifs at hcache with hkey
    obtain hcompleted | ⟨old', invalidated', hphase', rfl⟩ := htasked.replaced i other address hreplacer
    · exact hnew hcompleted
    · rw [hphase] at hphase'
      obtain ⟨rfl, rfl, -⟩ := Phase.invalidating.inj hphase'
      exact hspares.invalidates i username old invalidated rfl hphase hreplacer query response hkey
        hcache hpair
  | reading transfer =>
    simp only [World.resume, hphase]
    split <;> exact htask hphase (by simp) (by simp)
  | verifying transfer =>
    simp only [World.resume, hphase]
    split <;> exact htask hphase (by simp) (by simp)
  | updating transfer newAddress =>
    simp only [World.resume, hphase]
    cases hrow : findLive w.users transfer.username with
    | none => exact htask hphase (by simp) (by simp)
    | some row =>
      have hnew := htasked.not_completed (i := i) (by simp [hphase])
      refine ⟨((h.setAddress hnew hrow).completed i
        fun query response hcache other address hpair hreplacer => ?_).setTask i _,
        htasked.transferred (by simp [hphase]) (by simp [hphase])⟩
      obtain ⟨-, hne⟩ | ⟨-, rfl, rfl, hmoves⟩ := replacer_setAddress htasked (by simp [hphase])
        (by simp [hphase]) hreplacer
      · exact hne rfl
      · exact hspares.transfers i transfer newAddress row rfl hphase hrow
          (fun hsame => hmoves (congrArg Subtype.val hsame)) query response hcache hpair

lemma Coherent.step (h : Coherent host w) (htasked : Tasked w) (hspares : Spares host w move) :
    Coherent host (step host move w) ∧ Tasked (step host move w) := by
  have hbegin (i : ℕ) (phase : Phase) :
      Coherent host (w.begin i phase) ∧ Tasked (w.begin i phase) := by
    unfold World.begin
    split
    · rename_i hidle
      exact ⟨h.setTask i phase, htasked.setTask phase (by simp [hidle]) (by simp [hidle])⟩
    · exact ⟨h, htasked⟩
  cases move with
  | lookup i query =>
    simp only [Federation.step]
    split
    · rename_i hidle
      refine ⟨(h.started i).setTask i _, (htasked.started i).setTask _ ?_ ?_⟩
      · exact fun error => by simp [World.note, hidle]
      · exact fun _ _ _ => by simp [World.note, hidle]
    · exact ⟨h, htasked⟩
  | change i username newAddress invalidated => exact hbegin i _
  | transfer i transfer => exact hbegin i _
  | resume i => exact h.resume htasked i hspares
  | fail i error =>
    simp only [Federation.step, World.fail]
    split
    case h_6 => exact ⟨h, htasked⟩
    all_goals
      rename_i hphase
      exact ⟨h.setTask i _, htasked.setTask _ (by simp [hphase]) (by simp [hphase])⟩
  | expire key =>
    refine ⟨h.uncache fun other response hkey => ?_, htasked.completed, htasked.replaced⟩
    by_cases hsame : other = key
    · subst hsame
      rw [Function.update_self] at hkey
      cases hkey
    · rwa [Function.update_of_ne hsame] at hkey

end Runs

/-- In a run of such moves, whoever the users are, every lookup is fresh. -/
theorem lookups_fresh (host : Host) (users : List User) (moves : List Move)
    (h : Along (step host) (Spares host) { users := users } moves) :
    Fresh (run (step host) { users := users } moves).history := by
  have hstart : Coherent host { users := users } ∧ Tasked { users := users } :=
    ⟨⟨fresh_nil, fun _ _ hkey => (nomatch hkey), fun _ _ _ => rfl, fun _ _ _ => rfl⟩,
      ⟨fun _ hcompleted => absurd hcompleted List.not_mem_nil, fun _ _ _ hreplacer => (nomatch hreplacer)⟩⟩
  have hend := run_invariant (I := fun w => Coherent host w ∧ Tasked w)
    (fun w move hw hspares => hw.1.step hw.2 hspares) hstart h
  exact hend.1.fresh

section Examples

def sampleHost : Host where
  domain := "localhost"
  userDatabase _ := none
  isValidEd25519PublicKey _ := true

def alice : Username := ⟨"alice", by decide⟩

def users : List User := [{ username := alice, address := ⟨"GOLD", by decide⟩ }]

def look (i : ℕ) : List Move := [.lookup i (.name alice), .resume i, .resume i]

def change (i : ℕ) : List Move :=
  [.change i alice ⟨"GNEW", by decide⟩ (some "GOLD"), .resume i, .resume i]

def transfer (i : ℕ) : List Move :=
  [.transfer i ⟨alice, "GOLD", "GNEW"⟩, .resume i, .resume i, .resume i]

def goldOld : Response := ⟨"GOLD", "GOLD", none⟩

def Phase.Writes : Phase → Bool
  | .storing _ _ | .invalidating _ _ _ | .updating _ _ => true
  | _ => false

/-- Where a task does not write the cache or complete, nothing is asked of its step. -/
lemma spares_of_phase {host : Host} {w : World} {i : ℕ} (h : (w.tasks i).Writes = false) :
    Spares host w (.resume i) := by
  constructor
  · intro j query response hmove hphase
    obtain rfl := Move.resume.inj hmove
    rw [hphase] at h
    cases h
  · intro j username old invalidated hmove hphase
    obtain rfl := Move.resume.inj hmove
    rw [hphase] at h
    cases h
  · intro j transfer newAddress row hmove hphase
    obtain rfl := Move.resume.inj hmove
    rw [hphase] at h
    cases h

lemma spares_of_not_resume {host : Host} {w : World} {move : Move} (h : ∀ i, move ≠ .resume i) :
    Spares host w move :=
  ⟨fun i _ _ hmove => absurd hmove (h i), fun i _ _ _ hmove => absurd hmove (h i),
    fun i _ _ _ hmove => absurd hmove (h i)⟩

/-- The address is cached, changed and invalidated, and looked up again. -/
theorem lookups_fresh_sample :
    Fresh (run (step sampleHost) { users := users }
      (look 0 ++ [.resume 0] ++ change 1 ++ look 2)).history := by
  apply lookups_fresh
  refine ⟨spares_of_not_resume (by simp), spares_of_phase rfl, spares_of_phase rfl, ?_,
    spares_of_not_resume (by simp), spares_of_phase rfl, ?_, spares_of_not_resume (by simp),
    spares_of_phase rfl, spares_of_phase rfl, trivial⟩
  · refine ⟨fun i query response hmove hphase username address _ => ?_, fun i _ _ _ hmove hphase => ?_,
      fun i _ _ _ hmove hphase => ?_⟩
    · rintro ⟨write, -, hcompleted⟩
      have hnone : .completed write ∈ [Event.started 0,
        .answered 0 (Binds sampleHost (.name alice) goldOld)] := hcompleted
      simp at hnone
    · obtain rfl := Move.resume.inj hmove
      cases hphase
    · obtain rfl := Move.resume.inj hmove
      cases hphase
  · refine ⟨fun i _ _ hmove hphase => ?_,
      fun i username old invalidated hmove hphase _ query response hkey hcache => ?_,
      fun i _ _ _ hmove hphase => ?_⟩
    · obtain rfl := Move.resume.inj hmove
      cases hphase
    · obtain rfl := Move.resume.inj hmove
      cases hphase
      have hname : query.key ≠ (Query.name alice).key := by
        intro hsame
        rw [hsame] at hkey
        exact hkey (by decide)
      have hnone : Function.update (fun _ => none) (Query.name alice).key (some goldOld) query.key =
        some response := hcache
      rw [Function.update_of_ne hname] at hnone
      cases hnone
    · obtain rfl := Move.resume.inj hmove
      cases hphase

/-- A cached address is answered after a transfer, and so is one that is cached after its
invalidation. -/
theorem replaced_address_answered :
    ¬ Fresh (run (step sampleHost) { users := users }
      (look 0 ++ [.resume 0] ++ transfer 1 ++ [.lookup 2 (.name alice), .resume 2])).history ∧
    ¬ Fresh (run (step sampleHost) { users := users }
      (look 0 ++ change 1 ++ [.resume 0] ++ [.lookup 2 (.name alice), .resume 2])).history := by
  have hbinds : Binds sampleHost (.name alice) goldOld alice "GOLD" := ⟨rfl, rfl⟩
  have hstale (h : Fresh [.started 0, .answered 0 (Binds sampleHost (.name alice) goldOld),
      .bound 1 alice "GOLD" "GNEW", .completed 1, .started 2,
      .answered 2 (Binds sampleHost (.name alice) goldOld)]) : False := by
    obtain ⟨write, old, hmem⟩ := h [_, _, _, _] 2 [] _ [] rfl alice "GOLD" hbinds
      ⟨1, by decide, by simp⟩
    cases hmem
  exact ⟨hstale, hstale⟩

end Examples

end StellarTags.Federation
