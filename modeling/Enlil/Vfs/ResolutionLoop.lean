import Enlil.Vfs.Resolution

/-! The loop of `vfs_resolve_path_flags` in `kernel/vfs.c`, round by round: it ends, and it follows so many links at most. -/

namespace Enlil.Vfs

open SlashPath LinkWalk

/-- Where the loop stands: how many links it followed, what is left of the path, and what it leads to so far. -/
structure Loop where
  links : Nat
  pending : CString
  resolved : CString
  deriving DecidableEq, Repr

section

variable (lstat : CString → Except Errno UInt32) (readlink : CString → Except Errno CString) (mounts : List CString)
  (followFinal allowMissingFinal : Bool) (limit : Nat)

/-- One round of the loop, which may follow so many links: it returns, or goes on. -/
def loopRound (s : Loop) : Except Errno CString ⊕ Loop :=
  if s.pending = [] then .inl (.ok s.resolved)
  else if component s.pending = ['.'] then .inr { s with pending := afterComponent s.pending }
  else if component s.pending = ['.', '.'] then
    .inr { s with pending := afterComponent s.pending, resolved := vfsPathPopLast s.resolved }
  else
    match vfsPathAppendComponent s.resolved (component s.pending) vfsPathMax with
    | .error error => .inl (.error error)
    | .ok resolved =>
      match lstat resolved with
      | .error error =>
        if error = .enoent ∧ afterComponent s.pending ≠ [] ∧ vfsHasMountDescendant mounts resolved = true then
          .inr { s with pending := afterComponent s.pending, resolved := resolved }
        else if error = .enoent ∧ afterComponent s.pending = [] ∧ allowMissingFinal = true then .inl (.ok resolved)
        else .inl (.error error)
      | .ok mode =>
        if isLink mode = true ∧ (afterComponent s.pending ≠ [] ∨ followFinal = true) then
          match readlink resolved with
          | .error error => .inl (.error error)
          | .ok target =>
            if limit < s.links + 1 then .inl (.error .eloop)
            else
              match vfsJoinSymlinkTarget resolved target (afterComponent s.pending) vfsPathMax with
              | .error error => .inl (.error error)
              | .ok merged => .inr { links := s.links + 1, pending := skipSlashes merged, resolved := ['/'] }
        else if afterComponent s.pending ≠ [] ∧ isDir mode = false then .inl (.error .enotdir)
        else .inr { s with pending := afterComponent s.pending, resolved := resolved }

/-- So many rounds of the loop. -/
def loopRounds : Nat → Loop → Except Errno CString ⊕ Loop
  | 0, s => .inr s
  | rounds + 1, s =>
    match loopRound lstat readlink mounts followFinal allowMissingFinal limit s with
    | .inl answer => .inl answer
    | .inr next => loopRounds rounds next

/-- Where the loop starts. -/
def loopStart (path : CString) : Loop := { links := 0, pending := skipSlashes path, resolved := ['/'] }

/-- So many rounds over a path, if it is one that is gone through. -/
def resolveRounds (rounds : Nat) (path : CString) : Except Errno CString ⊕ Loop :=
  if path.head? ≠ some '/' then .inl (.error .enoent)
  else if vfsPathMax < path.length + 1 then .inl (.error .enametoolong)
  else loopRounds lstat readlink mounts followFinal allowMissingFinal limit rounds (loopStart path)

/-- What a path is gone through with after a link. -/
def restartAfter : Nat → Except Errno (CString → Except Errno CString)
  | 0 => .error .eloop
  | links + 1 => .ok (walkFrom lstat readlink mounts followFinal allowMissingFinal links)

/-- What the loop comes to from where it stands. -/
def loopAnswer (s : Loop) : Except Errno CString :=
  walk lstat readlink mounts followFinal allowMissingFinal
    (restartAfter lstat readlink mounts followFinal allowMissingFinal (limit - s.links)) s.pending.length s.pending s.resolved

/-- How many rounds are left at most. -/
def roundsLeft (s : Loop) : Nat := (limit - s.links) * vfsPathMax + s.pending.length + 1

end

section

variable {lstat : CString → Except Errno UInt32} {readlink : CString → Except Errno CString} {mounts : List CString}
  {followFinal allowMissingFinal : Bool} {limit : Nat} {path : CString} {names : List CString} {s t : Loop}

theorem walkFrom_restart (links : Nat) (path : CString) :
    walkFrom lstat readlink mounts followFinal allowMissingFinal links path =
      walk lstat readlink mounts followFinal allowMissingFinal
        (restartAfter lstat readlink mounts followFinal allowMissingFinal links) path.length (skipSlashes path) ['/'] := by
  cases links with
  | zero => rfl
  | succ links => rfl

theorem loopRound_answer (within : s.links ≤ limit) :
    match loopRound lstat readlink mounts followFinal allowMissingFinal limit s with
    | .inl answer => loopAnswer lstat readlink mounts followFinal allowMissingFinal limit s = answer
    | .inr next => loopAnswer lstat readlink mounts followFinal allowMissingFinal limit s =
        loopAnswer lstat readlink mounts followFinal allowMissingFinal limit next ∧ next.links ≤ limit ∧
          roundsLeft limit next < roundsLeft limit s := by
  unfold loopRound
  by_cases done : s.pending = []
  · rw [if_pos done, loopAnswer, done, walk_nil]
  rw [if_neg done]
  have some_char : s.pending.length ≠ 0 := by simpa using done
  obtain ⟨left, fuel⟩ := Nat.exists_eq_succ_of_ne_zero some_char
  have opened : loopAnswer lstat readlink mounts followFinal allowMissingFinal limit s = walk lstat readlink mounts followFinal allowMissingFinal
    (restartAfter lstat readlink mounts followFinal allowMissingFinal (limit - s.links)) (left + 1) s.pending s.resolved := by
    rw [loopAnswer, fuel]
  rw [walk, if_neg done] at opened
  by_cases empty : component s.pending = []
  · simp [empty, vfsPathAppendComponent] at opened ⊢
    exact opened
  have shorter := afterComponent_lt empty
  have onward (resolved : CString) :
      walk lstat readlink mounts followFinal allowMissingFinal
        (restartAfter lstat readlink mounts followFinal allowMissingFinal (limit - s.links)) left (afterComponent s.pending) resolved =
      loopAnswer lstat readlink mounts followFinal allowMissingFinal limit
        { s with pending := afterComponent s.pending, resolved := resolved } := walk_enough (by omega) (Nat.le_refl _)
  have fewer (resolved : CString) :
      roundsLeft limit { s with pending := afterComponent s.pending, resolved := resolved } < roundsLeft limit s := by
    simp only [roundsLeft]
    omega
  simp only [onward] at opened
  by_cases same : component s.pending = ['.']
  · rw [if_pos same] at opened ⊢
    exact ⟨opened, within, fewer _⟩
  rw [if_neg same] at opened ⊢
  by_cases up : component s.pending = ['.', '.']
  · rw [if_pos up] at opened ⊢
    exact ⟨opened, within, fewer _⟩
  rw [if_neg up] at opened ⊢
  cases appended : vfsPathAppendComponent s.resolved (component s.pending) vfsPathMax with
  | error error => simpa only [appended] using opened
  | ok resolved =>
    simp only [appended] at opened ⊢
    cases told : lstat resolved with
    | error error =>
      simp only [told] at opened ⊢
      split_ifs at opened ⊢
      · exact ⟨opened, within, fewer _⟩
      · exact opened
      · exact opened
    | ok mode =>
      simp only [told] at opened ⊢
      by_cases follows : isLink mode = true ∧ (afterComponent s.pending ≠ [] ∨ followFinal = true)
      · rw [if_pos follows] at opened ⊢
        cases read : readlink resolved with
        | error error => simpa [read, bind, Except.bind] using opened
        | ok target =>
          by_cases used : limit < s.links + 1
          · -- No link is left, so nothing is gone through again.
            have none : limit - s.links = 0 := by omega
            simp only [read, none, restartAfter] at opened
            simp only [if_pos used]
            exact opened
          · obtain ⟨links, more⟩ : ∃ links, limit - s.links = links + 1 := ⟨limit - s.links - 1, by omega⟩
            have spent : limit - (s.links + 1) = links := by omega
            simp only [read, more, restartAfter] at opened
            simp only [if_neg used]
            cases joined : vfsJoinSymlinkTarget resolved target (afterComponent s.pending) vfsPathMax with
            | error error => simpa [joined, bind, Except.bind] using opened
            | ok merged =>
              have bound := vfsJoinSymlinkTarget_length joined
              have skipped : (skipSlashes merged).length ≤ merged.length := (List.dropWhile_sublist _).length_le
              refine ⟨?_, by simp only; omega, ?_⟩
              · have again : loopAnswer lstat readlink mounts followFinal allowMissingFinal limit s =
                    walkFrom lstat readlink mounts followFinal allowMissingFinal links merged := by
                  simpa [joined, bind, Except.bind] using opened
                rw [again, walkFrom_restart, loopAnswer, spent]
                exact walk_enough skipped (Nat.le_refl _)
              · simp only [roundsLeft, more, spent, Nat.succ_mul]
                omega
      · rw [if_neg follows] at opened ⊢
        split_ifs at opened ⊢
        · exact opened
        · exact ⟨opened, within, fewer _⟩

theorem loopRounds_answer {rounds : Nat} (within : s.links ≤ limit) (enough : roundsLeft limit s ≤ rounds) :
    loopRounds lstat readlink mounts followFinal allowMissingFinal limit rounds s =
      .inl (loopAnswer lstat readlink mounts followFinal allowMissingFinal limit s) := by
  induction rounds generalizing s with
  | zero =>
    rw [roundsLeft] at enough
    omega
  | succ rounds ih =>
    have round := @loopRound_answer lstat readlink mounts followFinal allowMissingFinal _ _ within
    rw [loopRounds]
    cases went : loopRound lstat readlink mounts followFinal allowMissingFinal limit s with
    | inl answer =>
      rw [went] at round
      exact congrArg _ round.symm
    | inr next =>
      rw [went] at round
      obtain ⟨same, within, fewer⟩ := round
      rw [same]
      exact ih within (by omega)

theorem loopAnswer_start (links : Nat) (path : CString) :
    loopAnswer lstat readlink mounts followFinal allowMissingFinal links (loopStart path) =
      walkFrom lstat readlink mounts followFinal allowMissingFinal links path := by
  rw [walkFrom_restart]
  exact walk_enough (Nat.le_refl _) (List.dropWhile_sublist _).length_le

theorem resolveRounds_answer (path : CString) :
    resolveRounds lstat readlink mounts followFinal allowMissingFinal vfsSymlinkMax ((vfsSymlinkMax + 1) * vfsPathMax) path =
      .inl (vfsResolvePathFlags lstat readlink mounts followFinal allowMissingFinal path) := by
  unfold resolveRounds vfsResolvePathFlags
  split_ifs with start long
  · rfl
  · rfl
  · rw [loopRounds_answer (Nat.zero_le _), loopAnswer_start]
    have skipped : (skipSlashes path).length ≤ path.length := (List.dropWhile_sublist _).length_le
    simp only [roundsLeft, loopStart, Nat.add_mul, Nat.sub_zero]
    omega

theorem loopRound_limits (s : Loop) :
    (∃ outcome, (∀ limit, loopRound lstat readlink mounts followFinal allowMissingFinal limit s = outcome) ∧
      ∀ next, outcome = .inr next → next.links = s.links) ∨
    ∃ outcome, (∀ limit, loopRound lstat readlink mounts followFinal allowMissingFinal limit s =
        if limit < s.links + 1 then .inl (.error .eloop) else outcome) ∧
      ∀ next, outcome = .inr next → next.links = s.links + 1 := by
  unfold loopRound
  by_cases done : s.pending = []
  · exact .inl ⟨_, fun _ => if_pos done, nofun⟩
  simp only [if_neg done]
  by_cases same : component s.pending = ['.']
  · refine .inl ⟨_, fun _ => if_pos same, ?_⟩
    rintro next ⟨⟩
    rfl
  simp only [if_neg same]
  by_cases up : component s.pending = ['.', '.']
  · refine .inl ⟨_, fun _ => if_pos up, ?_⟩
    rintro next ⟨⟩
    rfl
  simp only [if_neg up]
  cases appended : vfsPathAppendComponent s.resolved (component s.pending) vfsPathMax with
  | error error => exact .inl ⟨_, fun _ => rfl, nofun⟩
  | ok resolved =>
    simp only
    cases lstat resolved with
    | error error =>
      simp only
      split_ifs
      · refine .inl ⟨_, fun _ => rfl, ?_⟩
        rintro next ⟨⟩
        rfl
      · exact .inl ⟨_, fun _ => rfl, nofun⟩
      · exact .inl ⟨_, fun _ => rfl, nofun⟩
    | ok mode =>
      simp only
      by_cases follows : isLink mode = true ∧ (afterComponent s.pending ≠ [] ∨ followFinal = true)
      · simp only [if_pos follows]
        cases readlink resolved with
        | error error => exact .inl ⟨_, fun _ => rfl, nofun⟩
        | ok target =>
          refine .inr ⟨_, fun _ => rfl, fun next went => ?_⟩
          split at went
          · cases went
          · cases went
            rfl
      · simp only [if_neg follows]
        split_ifs
        · exact .inl ⟨_, fun _ => rfl, nofun⟩
        · refine .inl ⟨_, fun _ => rfl, ?_⟩
          rintro next ⟨⟩
          rfl

theorem loopRounds_eloop {most rounds : Nat} (within : s.links ≤ most)
    (went : loopRounds lstat readlink mounts followFinal allowMissingFinal limit rounds s = .inr t) (more : most < t.links) :
    loopAnswer lstat readlink mounts followFinal allowMissingFinal most s = .error .eloop := by
  induction rounds generalizing s with
  | zero =>
    cases went
    omega
  | succ rounds ih =>
    have round := @loopRound_answer lstat readlink mounts followFinal allowMissingFinal _ _ within
    rw [loopRounds] at went
    cases first : loopRound lstat readlink mounts followFinal allowMissingFinal limit s with
    | inl answer =>
      rw [first] at went
      cases went
    | inr next =>
      rw [first] at went
      rcases @loopRound_limits lstat readlink mounts followFinal allowMissingFinal s with ⟨outcome, same, kept⟩ | ⟨outcome, limited, grows⟩
      · -- No link is followed in this round, so it goes the same way under both limits.
        rw [same most, ← same limit, first] at round
        rw [round.1]
        exact ih round.2.1 went
      · by_cases last : most < s.links + 1
        · rw [limited most, if_pos last] at round
          exact round
        · have goes : outcome = .inr next := by
            rw [limited limit] at first
            split_ifs at first
            exact first
          rw [limited most, if_neg last, goes] at round
          rw [round.1]
          exact ih round.2.1 went

theorem LinkAt.not_before (arrived : Arrived (tree lstat readlink mounts) followFinal names) {front : List CString}
    (before : front <+: names) (some_name : front ≠ []) (ends : front = names → followFinal = true) : ¬LinkAt lstat front := by
  intro link
  by_cases last : front = names
  · subst last
    obtain ⟨target, entry⟩ := @LinkAt.entry lstat readlink mounts front link
    exact arrived.followed (ends rfl) some_name target entry
  · exact link.not_dir (arrived.dirs front before some_name last)

end

/-- The loop returns, whatever the answers about paths are. Where it finds a path, this one is absolute and without detours, lies below no link,
is what a walk over the components leads to, and stays itself; where it would follow more links than it may, it says so. -/
theorem vfsResolvePathFlags_resolves (lstat : CString → Except Errno UInt32) (readlink : CString → Except Errno CString)
    (mounts : List CString) (followFinal allowMissingFinal : Bool) (path : CString) :
    resolveRounds lstat readlink mounts followFinal allowMissingFinal vfsSymlinkMax ((vfsSymlinkMax + 1) * vfsPathMax) path =
      .inl (vfsResolvePathFlags lstat readlink mounts followFinal allowMissingFinal path) ∧
    (∀ result, vfsResolvePathFlags lstat readlink mounts followFinal allowMissingFinal path = .ok result →
      ∃ names, result = render names ∧ Proper names ∧
        walkLinks (tree lstat readlink mounts) followFinal allowMissingFinal vfsSymlinkMax [] (parts path) = some names ∧
        (∀ front, front <+: names → front ≠ [] → front ≠ names → ¬LinkAt lstat front) ∧
        (followFinal = true → names ≠ [] → ¬LinkAt lstat names) ∧
        ∀ mode, lstat result = .ok mode →
          vfsResolvePathFlags lstat readlink mounts followFinal allowMissingFinal result = .ok result) ∧
    ∀ limit rounds s, resolveRounds lstat readlink mounts followFinal allowMissingFinal limit rounds path = .inr s →
      vfsSymlinkMax < s.links →
      vfsResolvePathFlags lstat readlink mounts followFinal allowMissingFinal path = .error .eloop := by
  refine ⟨resolveRounds_answer path, fun result resolved => ?_, fun limit rounds s went more => ?_⟩
  · obtain ⟨names, proper, same, _, walked⟩ := vfsResolvePathFlags_sound resolved
    have arrived := walkLinks_arrived Dirs.nil walked
    refine ⟨names, same, proper, walked, ?_, ?_, fun mode present => vfsResolvePathFlags_again resolved present⟩
    · intro front before some_name short
      exact LinkAt.not_before arrived before some_name fun last => absurd last short
    · intro follows some_name
      exact LinkAt.not_before arrived List.prefix_rfl some_name fun _ => follows
  · unfold resolveRounds at went
    unfold vfsResolvePathFlags
    split_ifs at went ⊢
    rw [← loopAnswer_start]
    exact loopRounds_eloop (Nat.zero_le _) went more

/-- A link to a directory is followed on the way, and a link at the end only if it is asked for. -/
example :
    let lstat (path : CString) : Except Errno UInt32 :=
      if path = "/usr".toList then .ok sIfdir
      else if path = "/lib".toList ∨ path = "/usr/it".toList then .ok sIflnk
      else .error .enoent
    let readlink (path : CString) : Except Errno CString := .ok (if path = "/lib".toList then "usr/".toList else "/lib".toList)
    vfsResolvePathFlags lstat readlink [] false false "/lib//./it".toList = .ok "/usr/it".toList ∧
      vfsResolvePathFlags lstat readlink [] true false "/lib//./it".toList = .ok "/usr".toList := by
  decide

end Enlil.Vfs
