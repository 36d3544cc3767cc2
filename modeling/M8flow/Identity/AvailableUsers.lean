import M8flow.Lib.Casing
import M8flow.Lib.Paging
import M8flow.Lib.Text
import Mathlib.Data.List.Dedup

/-!
# Users that can still become members

`list_available_tenant_users` of `tenant_role_service.py` reads the directory in batches,
leaves out the users that are members of the tenant, and returns a page of the rest.

- `available_page`: the page is the slice of the users that are left over in their batches.
- `leftOver_eq`: these are the users that are no members, where no two names of the directory
  differ in case only.
-/

namespace M8flow.Identity.AvailableUsers

open M8flow.Lib M8flow.Lib.Paging

/-- A user of the directory. -/
structure User where
  username : Option Text
  email : Option Text
  displayName : Option Text
  deriving Repr, DecidableEq

/-- What a user is listed as; the name is also the id. -/
structure GroupMember where
  id : Text
  username : Text
  email : Option Text
  displayName : Option Text
  deriving Repr, DecidableEq

/-- The directory: the users that a search finds, in one order, and the members of the tenant. -/
structure Directory where
  users : Text → List User
  members : List User

/-- `search_users`: a slice of what the query finds. -/
def Directory.searchUsers (directory : Directory) (query : Text) (limit offset : Nat) :
    List User :=
  ((directory.users query).drop offset).take limit

/-- `get_member`: the one member with exactly the name. -/
def Directory.getMember (directory : Directory) (username : Text) : Option User :=
  match directory.members.filter fun member => member.username = some username.strip with
  | [member] => some member
  | _ => none

/-- `username.strip()`, of no name for one that is absent. -/
def User.name (user : User) : Text := (user.username.getD []).strip

/-- `_serialize_group_member`. -/
def serializeGroupMember (user : User) : GroupMember where
  id := user.username.getD []
  username := user.username.getD []
  email := user.email
  displayName := user.displayName

section Listing

variable (casing : Casing) (directory : Directory)

/-- `load_membership`: the name of the member that is found, without regard to case. -/
def loadMembership (username : Text) : Option Text :=
  (directory.getMember username).bind fun member =>
    (truthy member.username).map fun name => casing.casefold name.strip

/-- `_organization_member_username_lookup`. -/
def organizationMemberUsernameLookup (usernames : List Text) : List Text :=
  (((usernames.map Text.strip).filter fun name => name ≠ []).dedup.filterMap
    (loadMembership casing directory)).filter fun name => name ≠ []

/-- The names of the members among the users of a batch. -/
def existingUsernames (realmUsers : List User) : List Text :=
  organizationMemberUsernameLookup casing directory
    (realmUsers.filterMap fun user => truthy user.username)

/-- The state of the listing: what is found, and how many are skipped. -/
structure Found where
  availableUsers : List GroupMember
  skipped : Nat
  deriving Repr, DecidableEq

/-- `for user in realm_users`, up to the end or to the last user of the page. -/
def scan (existing : List Text) (limit offset : Nat) : List User → Found → Found
  | [], found => found
  | user :: users, found =>
      if user.name = [] then scan existing limit offset users found
      else if casing.casefold user.name ∈ existing then scan existing limit offset users found
      else if found.skipped < offset then
        scan existing limit offset users { found with skipped := found.skipped + 1 }
      else
        let more := found.availableUsers ++ [serializeGroupMember user]
        if limit ≤ more.length then { found with availableUsers := more }
        else scan existing limit offset users { found with availableUsers := more }

/-- `while len(available_users) < normalized_limit`. -/
def listLoop (query : Text) (limit offset : Nat) :
    (fuel : Nat) → (realmOffset : Nat) → Found → Option (List GroupMember)
  | 0, _, _ => none
  | fuel + 1, realmOffset, found =>
      let batchSize := max 25 (limit * 2)
      if found.availableUsers.length < limit then
        let realmUsers := directory.searchUsers query batchSize realmOffset
        if realmUsers = [] then some found.availableUsers
        else
          let found := scan casing (existingUsernames casing directory realmUsers) limit offset
            realmUsers found
          if realmUsers.length < batchSize then some found.availableUsers
          else listLoop query limit offset fuel (realmOffset + realmUsers.length) found
      else some found.availableUsers

/-- `max(1, max_results)`. -/
def normalizedLimit (maxResults : Int) : Nat := (max 1 maxResults).toNat

/-- `max(0, offset)`. -/
def normalizedOffset (offset : Int) : Nat := (max 0 offset).toNat

/-- `str(search or "").strip()`. -/
def normalizedSearch (search : Option Text) : Text := (search.getD []).strip

/-- `list_available_tenant_users`: nothing stands for a loop that goes on. -/
def listAvailableTenantUsers (fuel : Nat) (search : Option Text) (maxResults offset : Int) :
    Option (List GroupMember) :=
  listLoop casing directory (normalizedSearch search) (normalizedLimit maxResults)
    (normalizedOffset offset) fuel 0 ⟨[], 0⟩

end Listing

/-! ## One batch -/

section Batch

variable (casing : Casing) (directory : Directory)

/-- A user with a name that is none of the names of members. -/
def free (existing : List Text) (user : User) : Bool :=
  user.name ≠ [] && casing.casefold user.name ∉ existing

/-- The users of a batch that are left over. -/
def leftOver (batch : List User) : List User :=
  batch.filter (free casing (existingUsernames casing directory batch))

variable {casing}

theorem scan_cons_of_not_free {existing : List Text} {limit offset : Nat} {user : User}
    (h : free casing existing user = false) (users : List User) (found : Found) :
    scan casing existing limit offset (user :: users) found =
      scan casing existing limit offset users found := by
  unfold free at h
  rw [Bool.and_eq_false_iff, decide_eq_false_iff_not, decide_eq_false_iff_not, not_not,
    not_not] at h
  rw [scan]
  by_cases hname : user.name = []
  · rw [if_pos hname]
  · rcases h with hblank | hmember
    · exact absurd hblank hname
    · rw [if_neg hname, if_pos hmember]

theorem scan_cons_of_free {existing : List Text} {limit offset : Nat} {user : User}
    (h : free casing existing user = true) (users : List User) (found : Found) :
    scan casing existing limit offset (user :: users) found =
      if found.skipped < offset then
        scan casing existing limit offset users { found with skipped := found.skipped + 1 }
      else if limit ≤ found.availableUsers.length + 1 then
        { found with availableUsers := found.availableUsers ++ [serializeGroupMember user] }
      else
        scan casing existing limit offset users
          { found with availableUsers := found.availableUsers ++ [serializeGroupMember user] } := by
  unfold free at h
  rw [Bool.and_eq_true, decide_eq_true_eq, decide_eq_true_eq] at h
  rw [scan, if_neg h.1, if_neg h.2]
  dsimp only
  rw [List.length_append, List.length_singleton]

/-- A scan skips what is still to be skipped, and then takes what the page has room for. -/
theorem scan_eq {existing : List Text} {limit offset : Nat} (users : List User) (found : Found)
    (hroom : found.availableUsers.length < limit) (hskipped : found.skipped ≤ offset) :
    scan casing existing limit offset users found =
      ⟨found.availableUsers ++
        (((users.filter (free casing existing)).drop (offset - found.skipped)).take
          (limit - found.availableUsers.length)).map serializeGroupMember,
        min offset (found.skipped + (users.filter (free casing existing)).length)⟩ := by
  induction users generalizing found with
  | nil =>
      have hmin : min offset found.skipped = found.skipped := Nat.min_eq_right hskipped
      simp [scan, hmin]
  | cons user users ih =>
      cases hfree : free casing existing user with
      | false =>
          rw [scan_cons_of_not_free hfree, ih found hroom hskipped,
            List.filter_cons_of_neg (by rw [hfree]; exact Bool.false_ne_true)]
      | true =>
          rw [scan_cons_of_free hfree, List.filter_cons_of_pos hfree, List.length_cons]
          by_cases hskip : found.skipped < offset
          · have hdrop : offset - found.skipped = offset - (found.skipped + 1) + 1 := by omega
            have hlength : ∀ n, found.skipped + 1 + n = found.skipped + (n + 1) := by omega
            rw [if_pos hskip, ih ⟨_, found.skipped + 1⟩ hroom hskip, hdrop, List.drop_succ_cons,
              hlength]
          · have hdrop : offset - found.skipped = 0 := by omega
            have hmin : ∀ n, min offset (found.skipped + n) = found.skipped := by omega
            obtain ⟨room, hlimit⟩ : ∃ room, limit - found.availableUsers.length = room + 1 :=
              ⟨limit - found.availableUsers.length - 1, by omega⟩
            rw [if_neg hskip, hdrop, List.drop_zero, hmin, hlimit, List.take_succ_cons,
              List.map_cons]
            by_cases hlast : limit ≤ found.availableUsers.length + 1
            · have hroom : room = 0 := by omega
              rw [if_pos hlast, hroom, List.take_zero]
              rfl
            · have hmore : limit - (found.availableUsers ++ [serializeGroupMember user]).length =
                  room := by
                rw [List.length_append, List.length_singleton]
                omega
              have hnext :
                  (found.availableUsers ++ [serializeGroupMember user]).length < limit := by
                rw [List.length_append, List.length_singleton]
                omega
              rw [if_neg hlast, ih ⟨_, _⟩ hnext hskipped]
              dsimp only
              rw [hmore, hdrop, List.drop_zero, hmin, List.append_assoc, List.singleton_append]

end Batch

/-! ## The loop -/

section Loop

variable {casing : Casing} {directory : Directory}

/-- What a search still finds after the users that were read. -/
theorem searchUsers_eq (query : Text) (limit offset : Nat) :
    directory.searchUsers query limit offset =
      ((directory.users query).drop offset).take limit := rfl

/-- The loop adds to the page what the rest of the directory has for it. -/
theorem listLoop_eq {query : Text} {limit offset : Nat} (fuel realmOffset : Nat) (found : Found)
    (hfuel : ((directory.users query).drop realmOffset).length < fuel)
    (hroom : found.availableUsers.length ≤ limit) (hskipped : found.skipped ≤ offset) :
    listLoop casing directory query limit offset fuel realmOffset found =
      some (found.availableUsers ++
        (((((batches (max 25 (limit * 2)) ((directory.users query).drop realmOffset)).flatMap
          (leftOver casing directory)).drop (offset - found.skipped)).take
          (limit - found.availableUsers.length)).map serializeGroupMember)) := by
  induction fuel generalizing realmOffset found with
  | zero => omega
  | succ fuel ih =>
      have hsize : 0 < max 25 (limit * 2) := by omega
      generalize hrest : (directory.users query).drop realmOffset = rest at hfuel ⊢
      unfold listLoop
      dsimp only
      by_cases hfull : found.availableUsers.length < limit
      · rw [if_pos hfull, searchUsers_eq, hrest]
        by_cases hnil : rest = []
        · rw [hnil, List.take_nil, if_pos rfl, batches_nil]
          simp
        · have hbatch : rest.take (max 25 (limit * 2)) ≠ [] := by
            rw [Ne, List.take_eq_nil_iff, not_or]
            exact ⟨by omega, hnil⟩
          have hpos := List.length_pos_iff.mpr hnil
          rw [if_neg hbatch, scan_eq _ _ hfull hskipped, batches_of_ne_nil hsize hnil,
            List.flatMap_cons]
          generalize hleft : (rest.take (max 25 (limit * 2))).filter
            (free casing (existingUsernames casing directory (rest.take (max 25 (limit * 2))))) =
              left
          have hleftOver : leftOver casing directory (rest.take (max 25 (limit * 2))) = left :=
            hleft
          rw [hleftOver]
          by_cases hshort : (rest.take (max 25 (limit * 2))).length < max 25 (limit * 2)
          · have hdone : rest.drop (max 25 (limit * 2)) = [] := by
              rw [List.length_take] at hshort
              exact List.drop_eq_nil_of_le (by omega)
            rw [if_pos hshort, hdone, batches_nil, List.flatMap_nil, List.append_nil]
          · have hlength : (rest.take (max 25 (limit * 2))).length = max 25 (limit * 2) := by
              rw [List.length_take] at hshort ⊢
              omega
            have hnext : (directory.users query).drop (realmOffset + max 25 (limit * 2)) =
                rest.drop (max 25 (limit * 2)) := by
              rw [← hrest, List.drop_drop]
            have hless : (rest.drop (max 25 (limit * 2))).length < fuel := by
              rw [List.length_drop]
              omega
            have htaken : ((left.drop (offset - found.skipped)).take
                (limit - found.availableUsers.length)).length =
                  min (limit - found.availableUsers.length)
                    (left.length - (offset - found.skipped)) := by
              rw [List.length_take, List.length_drop]
            rw [if_neg hshort, hlength,
              ih _ _ (by rw [hnext]; exact hless) ?_ (Nat.min_le_left _ _)]
            · dsimp only
              have hroomLeft : limit - (found.availableUsers.length +
                  min (limit - found.availableUsers.length)
                    (left.length - (offset - found.skipped))) =
                  limit - found.availableUsers.length -
                    (left.length - (offset - found.skipped)) := by
                omega
              have hskipLeft : offset - min offset (found.skipped + left.length) =
                  offset - found.skipped - left.length := by
                omega
              rw [hnext, List.drop_append, List.take_append, List.map_append, List.append_assoc,
                List.length_append, List.length_map, htaken, List.length_drop, hroomLeft, hskipLeft]
            · dsimp only
              rw [List.length_append, List.length_map, htaken]
              omega
      · have hzero : limit - found.availableUsers.length = 0 := by omega
        rw [if_neg hfull, hzero, List.take_zero, List.map_nil, List.append_nil]

end Loop

/-! ## The pages -/

section Pages

variable {casing : Casing} {directory : Directory}

/-- The users that a search finds and that are left over in their batches. -/
def available (casing : Casing) (directory : Directory) (query : Text) (limit : Nat) :
    List User :=
  (batches (max 25 (limit * 2)) (directory.users query)).flatMap (leftOver casing directory)

theorem listAvailableTenantUsers_eq {fuel : Nat} {search : Option Text} (maxResults offset : Int)
    (hfuel : (directory.users (normalizedSearch search)).length < fuel) :
    listAvailableTenantUsers casing directory fuel search maxResults offset =
      some ((((available casing directory (normalizedSearch search)
        (normalizedLimit maxResults)).drop (normalizedOffset offset)).take
        (normalizedLimit maxResults)).map serializeGroupMember) := by
  unfold listAvailableTenantUsers
  rw [listLoop_eq fuel 0 ⟨[], 0⟩ hfuel (Nat.zero_le _) (Nat.zero_le _)]
  rfl

/-! ### Members -/

/-- A user whose name is a member's. -/
def isMember (directory : Directory) (user : User) : Bool := (directory.getMember user.name).isSome

theorem name_of_getMember {username : Text} {member : User}
    (h : directory.getMember username = some member) : member.username = some username.strip := by
  unfold Directory.getMember at h
  split at h
  · rename_i found hfilter
    have hmem : found ∈ directory.members.filter fun member =>
        member.username = some username.strip := by
      rw [hfilter]
      exact List.mem_singleton_self found
    cases h
    exact of_decide_eq_true (List.mem_filter.mp hmem).2
  · cases h

theorem loadMembership_eq_some {username name : Text} :
    loadMembership casing directory username = some name ↔
      (directory.getMember username).isSome ∧ username.strip ≠ [] ∧
        casing.casefold username.strip = name := by
  unfold loadMembership
  cases hmember : directory.getMember username with
  | none => simp
  | some member =>
      rw [Option.bind_some, name_of_getMember hmember]
      by_cases hblank : username.strip = []
      · simp [truthy, hblank]
      · simp [truthy, hblank]

theorem name_truthy {user : User} {username : Text} (h : truthy user.username = some username) :
    user.name = username.strip := by
  unfold User.name
  rw [(truthy_eq_some.mp h).1]
  rfl

theorem truthy_of_name {user : User} (h : user.name ≠ []) :
    ∃ username, truthy user.username = some username := by
  cases husername : user.username with
  | none =>
      unfold User.name at h
      rw [husername] at h
      exact absurd Text.strip_nil h
  | some username =>
      refine ⟨username, truthy_eq_some.mpr ⟨rfl, ?_⟩⟩
      intro hnil
      unfold User.name at h
      rw [husername, hnil] at h
      exact absurd Text.strip_nil h

/-- The names of the members among the users of a batch. -/
theorem mem_existingUsernames {batch : List User} {name : Text} (hname : name ≠ []) :
    name ∈ existingUsernames casing directory batch ↔
      ∃ user ∈ batch, user.name ≠ [] ∧ isMember directory user ∧
        casing.casefold user.name = name := by
  unfold existingUsernames organizationMemberUsernameLookup isMember
  rw [List.mem_filter, List.mem_filterMap]
  constructor
  · intro h
    obtain ⟨⟨stripped, hmem, hload⟩, -⟩ := h
    rw [List.mem_dedup, List.mem_filter, List.mem_map] at hmem
    obtain ⟨⟨username, husername, hstrip⟩, hne⟩ := hmem
    obtain ⟨user, huser, htruthy⟩ := List.mem_filterMap.mp husername
    obtain ⟨hmember, -, hfold⟩ := loadMembership_eq_some.mp hload
    have hsame : user.name = stripped := (name_truthy htruthy).trans hstrip
    have hstripped : stripped.strip = stripped := by
      rw [← hstrip, Text.strip_strip]
    rw [hstripped] at hfold
    refine ⟨user, huser, ?_, ?_, ?_⟩
    · rw [hsame]
      exact of_decide_eq_true hne
    · rw [hsame]
      exact hmember
    · rw [hsame]
      exact hfold
  · intro h
    obtain ⟨user, huser, hne, hmember, hfold⟩ := h
    obtain ⟨username, htruthy⟩ := truthy_of_name hne
    have hstripped : user.name.strip = user.name := by
      unfold User.name
      exact Text.strip_strip _
    refine ⟨⟨user.name, ?_, ?_⟩, decide_eq_true hname⟩
    · rw [List.mem_dedup, List.mem_filter, List.mem_map]
      exact ⟨⟨username, List.mem_filterMap.mpr ⟨user, huser, htruthy⟩,
        (name_truthy htruthy).symm⟩, decide_eq_true hne⟩
    · rw [loadMembership_eq_some, hstripped]
      exact ⟨hmember, hne, hfold⟩

/-- The users that have a name and are no members. -/
def outside (directory : Directory) (user : User) : Bool :=
  user.name ≠ [] && !isMember directory user

/-- No two names of the users differ in case only. -/
def Separate (casing : Casing) (users : List User) : Prop :=
  ∀ user ∈ users, ∀ other ∈ users, casing.casefold user.name = casing.casefold other.name →
    user.name = other.name

theorem leftOver_of_separate {users batch : List User} (hseparate : Separate casing users)
    (hfold : ∀ name : Text, name ≠ [] → casing.casefold name ≠ []) (hbatch : batch ⊆ users) :
    leftOver casing directory batch = batch.filter (outside directory) := by
  apply List.filter_congr
  intro user huser
  unfold free outside
  by_cases hname : user.name = []
  · rw [hname]
    rfl
  · have hmember : casing.casefold user.name ∈ existingUsernames casing directory batch ↔
        isMember directory user = true := by
      rw [mem_existingUsernames (hfold _ hname)]
      constructor
      · intro h
        obtain ⟨other, hother, -, hmember, hsame⟩ := h
        have hnames := hseparate other (hbatch hother) user (hbatch huser) hsame
        unfold isMember at hmember ⊢
        rwa [hnames] at hmember
      · exact fun hmember => ⟨user, huser, hname, hmember, rfl⟩
    cases hcase : isMember directory user with
    | true =>
        rw [decide_eq_false (not_not.mpr (hmember.mpr hcase))]
        rfl
    | false =>
        have hnot : casing.casefold user.name ∉ existingUsernames casing directory batch := by
          rw [hmember, hcase]
          exact Bool.false_ne_true
        rw [decide_eq_true hnot]
        rfl

/-- In such a directory the users that are left over are the users outside of the tenant. -/
theorem available_of_separate {query : Text} {limit : Nat}
    (hseparate : Separate casing (directory.users query))
    (hfold : ∀ name : Text, name ≠ [] → casing.casefold name ≠ []) :
    available casing directory query limit =
      (directory.users query).filter (outside directory) :=
  flatMap_batches (by omega) fun _ hbatch => leftOver_of_separate hseparate hfold hbatch

/-- Consecutive pages are one after the other what is left over. -/
theorem pages_eq {fuel : Nat} {search : Option Text} (maxResults : Int)
    (hfuel : (directory.users (normalizedSearch search)).length < fuel) (count : Nat) :
    ((List.range count).flatMap fun i =>
      (listAvailableTenantUsers casing directory fuel search maxResults
        (i * normalizedLimit maxResults : Nat)).getD []) =
      ((available casing directory (normalizedSearch search) (normalizedLimit maxResults)).take
        (count * normalizedLimit maxResults)).map serializeGroupMember := by
  generalize hrows : available casing directory (normalizedSearch search)
    (normalizedLimit maxResults) = rows
  have hpages : (pages (fun _ => rows) (normalizedLimit maxResults) count).map
      serializeGroupMember = _ := keys_pages (fun _ => rfl) (normalizedLimit maxResults) count
  rw [List.map_take, ← hpages]
  unfold pages
  rw [List.map_flatMap]
  congr 1
  funext i
  have hoffset : normalizedOffset (i * normalizedLimit maxResults : Nat) =
      (i + 1 - 1) * normalizedLimit maxResults := by
    unfold normalizedOffset
    rw [Nat.add_sub_cancel]
    omega
  rw [listAvailableTenantUsers_eq _ _ hfuel, Option.getD_some, hrows, hoffset]
  rfl

/-- Every page is the slice of the users that are left over, and consecutive pages are one after
the other these users; in a directory in which no two names differ in case only, they are the
users with a name that are no members. -/
theorem available_page (casing : Casing) (directory : Directory) (search : Option Text)
    (maxResults offset : Int) {fuel : Nat}
    (hfuel : (directory.users (normalizedSearch search)).length < fuel) :
    listAvailableTenantUsers casing directory fuel search maxResults offset =
      some ((((available casing directory (normalizedSearch search)
        (normalizedLimit maxResults)).drop (normalizedOffset offset)).take
        (normalizedLimit maxResults)).map serializeGroupMember) ∧
    (∀ count, ((List.range count).flatMap fun i =>
      (listAvailableTenantUsers casing directory fuel search maxResults
        (i * normalizedLimit maxResults : Nat)).getD []) =
      ((available casing directory (normalizedSearch search) (normalizedLimit maxResults)).take
        (count * normalizedLimit maxResults)).map serializeGroupMember) ∧
    (Separate casing (directory.users (normalizedSearch search)) →
      (∀ name : Text, name ≠ [] → casing.casefold name ≠ []) →
      available casing directory (normalizedSearch search) (normalizedLimit maxResults) =
        (directory.users (normalizedSearch search)).filter (outside directory)) :=
  ⟨listAvailableTenantUsers_eq maxResults offset hfuel, pages_eq maxResults hfuel,
    available_of_separate⟩

/-! ### A tenant -/

/-- Users and members with the names; every search finds all users. -/
def directoryOf (names memberNames : List String) : Directory where
  users _ := names.map fun name => ⟨some name.toList, none, none⟩
  members := memberNames.map fun name => ⟨some name.toList, none, none⟩

theorem second_page :
    listAvailableTenantUsers Casing.ascii (directoryOf ["ada", "bob", "cleo", "dan"] ["bob"]) 5
      (some " ".toList) 2 2 = some [⟨"dan".toList, "dan".toList, none, none⟩] := by
  have hpage := available_page Casing.ascii (directoryOf ["ada", "bob", "cleo", "dan"] ["bob"])
    (some " ".toList) 2 2 (show 4 < 5 by decide)
  have hseparate : Separate Casing.ascii
      ((directoryOf ["ada", "bob", "cleo", "dan"] ["bob"]).users
        (normalizedSearch (some " ".toList))) := by
    unfold Separate
    decide
  have hfold : ∀ name : Text, name ≠ [] → Casing.ascii.casefold name ≠ [] := by
    intro name hname hnil
    exact hname (List.map_eq_nil_iff.mp hnil)
  rw [hpage.1, hpage.2.2 hseparate hfold]
  decide

/-- No results are asked for and one is returned; and a user is left out for a member whose name
differs in case. -/
theorem pages_not_exact :
    listAvailableTenantUsers Casing.ascii (directoryOf ["ada"] []) 2 none 0 0 =
      some [⟨"ada".toList, "ada".toList, none, none⟩] ∧
    listAvailableTenantUsers Casing.ascii (directoryOf ["Ada", "ada"] ["ada"]) 3 none 10 0 =
      some [] ∧
    (directoryOf ["Ada", "ada"] ["ada"]).getMember "Ada".toList = none := by
  decide

end Pages

end M8flow.Identity.AvailableUsers
