import TorrentLink.Core.Rss.ServiceRuns

/-!
# Refreshes that wait for their fetch

`RssFetcher::fetch` runs an event loop, so other calls of the service, refreshes among them, run while a
refresh waits. The waiting refreshes form a stack: the fetch that was begun last returns first. What a
refresh keeps over its fetch is the position of `fit`, and in `refreshAllFeeds` also the position that
`feed_id` refers to and the end of the loop. If those positions still mean the same feed when the fetch
returns, its results go to that feed and nowhere else.
-/

namespace TorrentLink.Rss

open Lib

/-- A refresh that waits. -/
structure Suspended where
  /-- The id of the feed whose fetch is awaited. -/
  asked : String
  fit : Nat
  /-- In `refreshAllFeeds`: the position of `feed`, and that of the end of the loop. -/
  loop : Option (Nat × Nat)

/-- The service with its waiting refreshes. After an access outside `feeds_` nothing is said. -/
structure Nest where
  service : Service := {}
  stack : List Suspended := []
  outside : Bool := false

variable (env : ServiceEnv)

/-- What `feed_id` reads: the caller's text, or the id at a position. -/
def argId (s : Service) (waiting : Suspended) : Option String :=
  match waiting.loop with
  | none => some waiting.asked
  | some (p, _) => (s.feeds[p]?).map (·.id)

/-- What `refreshAllFeeds` does after its loop. -/
def afterLoop (now : Int) (s : Service) : Service :=
  rebuildIndex env (pruneItemsWithoutMatchingFeed (s.pruneHistory env now))

/-- The loop of `refreshAllFeeds` from position `p` on, with `remaining` positions up to its end: it
waits at the first enabled feed. -/
def refreshLoop (now : Int) (s : Service) (stack : List Suspended) : (p remaining : Nat) → Nest
  | _, 0 => { service := afterLoop env now s, stack := stack }
  | p, remaining + 1 =>
    match s.feeds[p]? with
    | none => { service := s, stack := stack, outside := true }
    | some feed =>
      if feed.enabled then
        match feedIndex s.feeds feed.id with
        | some i =>
          { service := s
            stack := { asked := feed.id, fit := i, loop := some (p, p + remaining + 1) } :: stack }
        | none => refreshLoop now s stack (p + 1) remaining
      else refreshLoop now s stack (p + 1) remaining

/-- The rest of a refresh, once its fetch has returned. -/
def fetchReturned (now : Int) (result : FetchResult) (bound : Nat) (n : Nest) (waiting : Suspended)
    (rest : List Suspended) : Nest :=
  if n.service.feeds.length ≤ waiting.fit then { n with outside := true }
  else if result.ok = true ∧ argId n.service waiting = none then { n with outside := true }
  else
    match applyFetch env now n.service waiting.fit ((argId n.service waiting).getD "") result bound with
    | none => n
    | some s =>
      match waiting.loop with
      | none => { n with service := onRefreshExit env s, stack := rest }
      | some (p, last) => refreshLoop env now (onRefreshExit env s) rest (p + 1) (last - (p + 1))

inductive NestOp
  /-- A call that does not wait. -/
  | call (op : ServiceOp)
  | beginRefresh (feedId : String)
  | beginRefreshAll (now : Int)
  /-- The fetch begun last returns; `bound` is for the parse. -/
  | fetchReturns (now : Int) (result : FetchResult) (bound : Nat)

/-- A step inside the list. -/
def insideStep (n : Nest) : NestOp → Nest
  | .call op => { n with service := serviceStep env n.service op }
  | .beginRefresh feedId =>
    match feedIndex n.service.feeds feedId with
    | none => n
    | some i => { n with stack := { asked := feedId, fit := i, loop := none } :: n.stack }
  | .beginRefreshAll now =>
    refreshLoop env now { n.service with lastRefreshNewItemIds := ∅ } n.stack 0
      n.service.feeds.length
  | .fetchReturns now result bound =>
    match n.stack with
    | [] => n
    | waiting :: rest => fetchReturned env now result bound n waiting rest

def nestStep (n : Nest) (op : NestOp) : Nest := if n.outside then n else insideStep env n op

/-! ### What a return must do -/

/-- Only records of the feed are changed, and only items of the feed are added, if it still exists. -/
structure GoesHome (feedId : String) (s s' : Service) : Prop where
  records : ∀ j : Nat, s'.feeds[j]? ≠ s.feeds[j]? →
    ∃ feed, s.feeds[j]? = some feed ∧ feed.id = feedId
  items : ∀ it ∈ s'.items, it ∉ s.items → it.feedId = feedId ∧ ∃ feed ∈ s'.feeds, feed.id = feedId

/-- The step accesses no position outside `feeds_`, and the results of a fetch go to its feed. -/
structure ReturnSound (n : Nest) (op : NestOp) : Prop where
  inside : n.outside = false → (nestStep env n op).outside = false
  home : ∀ now result bound waiting rest, op = .fetchReturns now result bound →
    n.stack = waiting :: rest → GoesHome waiting.asked n.service (nestStep env n op).service

/-- When the fetch returns, the feed is still at the position of `fit`. In `refreshAllFeeds` it is also
still at the position of the loop, and the loop meets an enabled feed or its end before it leaves the
list. -/
def Suspended.InPlace (s : Service) (fetched : Bool) (waiting : Suspended) : Prop :=
  (∃ feed ∈ s.feeds[waiting.fit]?, feed.id = waiting.asked) ∧
    (fetched = true → argId s waiting = some waiting.asked) ∧
    ∀ place ∈ waiting.loop, place.2 ≤ s.feeds.length ∨
      (s.feeds.drop (place.1 + 1)).any (·.enabled) = true

instance (s : Service) (fetched : Bool) (waiting : Suspended) :
    Decidable (waiting.InPlace s fetched) :=
  inferInstanceAs (Decidable ((∃ feed ∈ s.feeds[waiting.fit]?, feed.id = waiting.asked) ∧
    (fetched = true → argId s waiting = some waiting.asked) ∧
    ∀ place ∈ waiting.loop, place.2 ≤ s.feeds.length ∨
      (s.feeds.drop (place.1 + 1)).any (·.enabled) = true))

def FeedInPlace (n : Nest) : NestOp → Prop
  | .fetchReturns _ result _ => ∀ waiting ∈ n.stack.head?, waiting.InPlace n.service result.ok
  | _ => True

/-! ### The parts of a return -/

/-- Between the two states only the feed at one position is changed, and no id or switch. -/
structure FeedsAt (i : Nat) (s s' : Service) : Prop where
  others : ∀ j, j ≠ i → s'.feeds[j]? = s.feeds[j]?
  ids : s'.feeds.map (·.id) = s.feeds.map (·.id)
  enabled : s'.feeds.map (·.enabled) = s.feeds.map (·.enabled)

theorem FeedsAt.trans {i : Nat} {s s' s'' : Service} (h : FeedsAt i s s') (h' : FeedsAt i s' s'') :
    FeedsAt i s s'' :=
  ⟨fun j hj => (h'.others j hj).trans (h.others j hj), h'.ids.trans h.ids,
    h'.enabled.trans h.enabled⟩

theorem feedsAt_modifyFeed (s : Service) (i : Nat) {f : RssFeed → RssFeed}
    (hid : ∀ feed, (f feed).id = feed.id) (henabled : ∀ feed, (f feed).enabled = feed.enabled) :
    FeedsAt i s (modifyFeed s i f) :=
  ⟨fun _ hj => List.getElem?_modify_ne f s.feeds (Ne.symm hj), map_modify hid s.feeds i,
    map_modify henabled s.feeds i⟩

/-- What a refresh adds carries the id it was given. -/
structure Fetched (i : Nat) (feedId : String) (s s' : Service) : Prop where
  feeds : FeedsAt i s s'
  items : ∀ it ∈ s'.items, it ∈ s.items ∨ it.feedId = feedId

theorem fetched_applyParse (s : Service) (i : Nat) (feedId : String) {result : ParseResult}
    (h : ∀ it ∈ result.items, it.feedId = feedId) : Fetched i feedId s (applyParse env s i result) := by
  have hadd : ∀ s : Service, FeedsAt i s (addIncoming env s result.items) :=
    fun _ => ⟨fun _ _ => rfl, rfl, rfl⟩
  unfold applyParse
  dsimp only
  split
  · refine ⟨(feedsAt_modifyFeed s i (fun feed => ?_) fun feed => ?_).trans (hadd _),
      fun it hit => ?_⟩
    · split
      · rfl
      · rfl
    · split
      · rfl
      · rfl
    · rcases List.mem_append.mp hit with hit | hit
      · exact .inl hit
      · exact .inr (h it (mem_of_mem_dedupIncoming env.text.toLower hit))
  · exact ⟨feedsAt_modifyFeed s i (fun _ => rfl) fun _ => rfl, fun it hit => .inl hit⟩

variable {env}

theorem ensures_fetched (now : Int) (s : Service) (i : Nat) (feedId : String)
    (fetchResult : FetchResult) :
    Ensures (applyFetch env now s i feedId fetchResult) (Fetched i feedId s) := by
  unfold applyFetch
  dsimp only
  split
  · refine (ensures_parse env.text feedId fetchResult.body).andThen fun result hresult =>
      ensures_always ?_
    generalize hs : modifyFeed s i _ = s'
    have hmodify : FeedsAt i s s' := hs ▸ feedsAt_modifyFeed s i (fun _ => rfl) fun _ => rfl
    have hitems : s'.items = s.items := hs ▸ rfl
    have hparse := fetched_applyParse env s' i feedId fun it hit => (hresult it hit).feedId
    exact ⟨hmodify.trans hparse.feeds, hitems ▸ hparse.items⟩
  · exact ensures_always ⟨feedsAt_modifyFeed s i (fun _ => rfl) fun _ => rfl, fun it hit => .inl hit⟩

/-- A fetch that failed adds nothing. -/
theorem ensures_fetched_failed (now : Int) (s : Service) (i : Nat) (feedId : String)
    {fetchResult : FetchResult} (h : fetchResult.ok = false) :
    Ensures (applyFetch env now s i feedId fetchResult) fun s' =>
      FeedsAt i s s' ∧ s'.items = s.items := by
  unfold applyFetch
  rw [if_neg (by simp [h])]
  exact ensures_always ⟨feedsAt_modifyFeed s i (fun _ => rfl) fun _ => rfl, rfl⟩

/-- A loop that does not leave the list changes no feed and adds no item. -/
theorem refreshLoop_spec (now : Int) (s : Service) (stack : List Suspended) (p remaining : Nat)
    (h : remaining = 0 ∨ p + remaining ≤ s.feeds.length ∨
      (s.feeds.drop p).any (·.enabled) = true) :
    (refreshLoop env now s stack p remaining).outside = false ∧
      (refreshLoop env now s stack p remaining).service.feeds = s.feeds ∧
      ∀ it ∈ (refreshLoop env now s stack p remaining).service.items, it ∈ s.items := by
  induction remaining generalizing p with
  | zero =>
    rw [refreshLoop]
    refine ⟨rfl, ?_, fun it hit => ?_⟩
    · show (s.pruneHistory env now).feeds = s.feeds
      unfold Service.pruneHistory
      dsimp only
      split
      · rfl
      · rfl
    · refine (pruneHistory_subperm env.history now s.historyPolicy s.items).subset ?_
      have hmem : it ∈ (s.pruneHistory env now).items := List.mem_of_mem_filter hit
      unfold Service.pruneHistory at hmem
      dsimp only at hmem
      split at hmem
      · exact hmem
      · exact hmem
  | succ remaining ih =>
    rw [refreshLoop]
    cases hp : s.feeds[p]? with
    | none =>
      have hlen := List.getElem?_eq_none_iff.mp hp
      rw [List.drop_eq_nil_of_le hlen] at h
      rcases h with h | h | h
      · omega
      · omega
      · cases h
    | some feed =>
      have hdrop : s.feeds.drop p = feed :: s.feeds.drop (p + 1) := by
        obtain ⟨hlt, hget⟩ := List.getElem?_eq_some_iff.mp hp
        rw [List.drop_eq_getElem_cons hlt, hget]
      have hrest : feed.enabled = false → remaining = 0 ∨ p + 1 + remaining ≤ s.feeds.length ∨
          (s.feeds.drop (p + 1)).any (·.enabled) = true := by
        intro hdisabled
        rw [hdrop, List.any_cons, hdisabled, Bool.false_or] at h
        rcases h with h | h | h
        · omega
        · exact .inr (.inl (by omega))
        · exact .inr (.inr h)
      dsimp only
      split
      · cases hi : feedIndex s.feeds feed.id with
        | some i => exact ⟨rfl, rfl, fun it hit => hit⟩
        | none =>
          have hmem : feed ∈ s.feeds := List.mem_of_getElem? hp
          exact absurd rfl (of_decide_eq_false (List.findIdx?_eq_none_iff.mp hi feed hmem))
      · rename_i hdisabled
        exact ih (p + 1) (hrest (Bool.eq_false_iff.mpr hdisabled))

/-! ### Returns -/

theorem FeedsAt.length {i : Nat} {s s' : Service} (h : FeedsAt i s s') :
    s'.feeds.length = s.feeds.length := by
  have hlen := congrArg List.length h.ids
  rwa [List.length_map, List.length_map] at hlen

theorem FeedsAt.any_enabled {i : Nat} {s s' : Service} (h : FeedsAt i s s') (k : Nat) :
    (s'.feeds.drop k).any (·.enabled) = (s.feeds.drop k).any (·.enabled) := by
  have hany : ∀ feeds : List RssFeed, (feeds.drop k).any (·.enabled) =
      ((feeds.map (·.enabled)).drop k).any id := by
    intro feeds
    rw [← List.map_drop, List.any_map]
    rfl
  rw [hany, hany, h.enabled]

variable (env) in
/-- What the scope guard leaves of a fetch. -/
theorem goesHome_onExit {s s' : Service} {i : Nat} {feedId : String} (h : Fetched i feedId s s')
    {feed : RssFeed} (hfeed : s.feeds[i]? = some feed) (hid : feed.id = feedId) :
    GoesHome feedId s (onRefreshExit env s') := by
  refine ⟨fun j hj => ?_, fun it hit hnew => ?_⟩
  · have hji : j = i := by
      by_contra hne
      exact hj (h.feeds.others j hne)
    exact ⟨feed, hji ▸ hfeed, hid⟩
  · obtain ⟨hmem, hmatch⟩ := List.mem_filter.mp hit
    have hfeedId : it.feedId = feedId := (h.items it hmem).resolve_left hnew
    refine ⟨hfeedId, ?_⟩
    unfold hasMatchingFeed at hmatch
    split at hmatch
    · -- there are feeds, so an item without a feed id is not kept
      have hlen := h.feeds.length
      have hlt := (List.getElem?_eq_some_iff.mp hfeed).1
      rw [List.isEmpty_iff] at hmatch
      rw [hmatch, List.length_nil] at hlen
      omega
    · obtain ⟨home, hhome, heq⟩ := List.any_eq_true.mp hmatch
      exact ⟨home, hhome, (of_decide_eq_true heq).trans hfeedId⟩

theorem GoesHome.refl (feedId : String) (s : Service) : GoesHome feedId s s :=
  ⟨fun _ hj => absurd rfl hj, fun _ hit hnew => absurd hit hnew⟩

theorem fetchReturned_sound {now : Int} {result : FetchResult} {bound : Nat} {n : Nest}
    {waiting : Suspended} {rest : List Suspended} (h : waiting.InPlace n.service result.ok)
    (hinside : n.outside = false) :
    (fetchReturned env now result bound n waiting rest).outside = false ∧
      GoesHome waiting.asked n.service (fetchReturned env now result bound n waiting rest).service := by
  obtain ⟨⟨feed, hfeed, hid⟩, harg, hloop⟩ := h
  have hlt : ¬n.service.feeds.length ≤ waiting.fit :=
    Nat.not_le.mpr (List.getElem?_eq_some_iff.mp hfeed).1
  have hread : ¬(result.ok = true ∧ argId n.service waiting = none) := fun ⟨hok, hnone⟩ =>
    absurd ((harg hok).symm.trans hnone) (by simp)
  unfold fetchReturned
  rw [if_neg hlt, if_neg hread]
  cases hfetch : applyFetch env now n.service waiting.fit ((argId n.service waiting).getD "") result
      bound with
  | none => exact ⟨hinside, GoesHome.refl _ _⟩
  | some s =>
    have hfetched : Fetched waiting.fit waiting.asked n.service s := by
      by_cases hok : result.ok = true
      · rw [harg hok] at hfetch
        exact ensures_fetched now n.service waiting.fit waiting.asked result bound s hfetch
      · obtain ⟨hfeeds, hitems⟩ := ensures_fetched_failed now n.service waiting.fit _
          (Bool.eq_false_iff.mpr hok) bound s hfetch
        exact ⟨hfeeds, fun it hit => .inl (hitems ▸ hit)⟩
    have hhome := goesHome_onExit env hfetched hfeed hid
    dsimp only
    cases hplace : waiting.loop with
    | none => exact ⟨hinside, hhome⟩
    | some place =>
      obtain ⟨p, last⟩ := place
      have hstay : last - (p + 1) = 0 ∨ p + 1 + (last - (p + 1)) ≤ s.feeds.length ∨
          (s.feeds.drop (p + 1)).any (·.enabled) = true := by
        rw [hfetched.feeds.any_enabled, hfetched.feeds.length]
        rcases hloop (p, last) hplace with hle | hany
        · by_cases hzero : last - (p + 1) = 0
          · exact .inl hzero
          · exact .inr (.inl (by omega))
        · exact .inr (.inr hany)
      obtain ⟨hout, hfeeds, hitems⟩ :=
        refreshLoop_spec now (onRefreshExit env s) rest (p + 1) (last - (p + 1)) hstay
      refine ⟨hout, fun j hj => hhome.records j (hfeeds ▸ hj), fun it hit hnew => ?_⟩
      dsimp only
      rw [hfeeds]
      exact hhome.items it (hitems it hit) hnew

theorem insideStep_inside {n : Nest} {op : NestOp} (hinside : n.outside = false)
    (h : FeedInPlace n op) : (insideStep env n op).outside = false := by
  unfold insideStep
  split
  · exact hinside
  · split
    · exact hinside
    · exact hinside
  · exact (refreshLoop_spec _ _ n.stack 0 _ (.inr (.inl (Nat.le_of_eq (Nat.zero_add _))))).1
  · split
    · exact hinside
    · rename_i waiting rest hstack
      exact (fetchReturned_sound (h waiting (by rw [hstack]; rfl)) hinside).1

theorem returnSound_of_inPlace {n : Nest} {op : NestOp} (h : FeedInPlace n op) :
    ReturnSound env n op := by
  by_cases hinside : n.outside = false
  · have hstep : nestStep env n op = insideStep env n op := if_neg (by simp [hinside])
    refine ⟨fun _ => hstep ▸ insideStep_inside hinside h, ?_⟩
    rintro now result bound waiting rest rfl hstack
    have hreturn : nestStep env n (.fetchReturns now result bound) =
        fetchReturned env now result bound n waiting rest := by
      rw [hstep, insideStep, hstack]
    rw [hreturn]
    exact (fetchReturned_sound (h waiting (by rw [hstack]; rfl)) hinside).2
  · have hstay : nestStep env n op = n := if_pos (by simpa using hinside)
    refine ⟨fun hin => absurd hin hinside, fun _ _ _ waiting _ _ _ => ?_⟩
    rw [hstay]
    exact GoesHome.refl _ _

/-! ### Runs -/

variable (env)

/-- In every run in which each fetch, when it returns, finds its feed in place, the results of every
fetch go to its feed, and no position outside the list of feeds is accessed. -/
theorem run_returnSound (s : Service) (ops : List NestOp)
    (h : RunOk (nestStep env) FeedInPlace { service := s } ops) :
    RunOk (nestStep env) (ReturnSound env) { service := s } ops ∧
      (run (nestStep env) { service := s } ops).outside = false :=
  ⟨h.imp fun _ _ hplace => returnSound_of_inPlace hplace,
    RunOk.invariant (P := fun n : Nest => n.outside = false)
      (fun _ _ hinside hplace => (returnSound_of_inPlace hplace).inside hinside) rfl h⟩

/-- Two feeds are refreshed together, and one of them by itself meanwhile. -/
def refreshWithin : List NestOp :=
  [.call (.upsertFeed "a" { url := "http://example.org/a" }),
    .call (.upsertFeed "b" { url := "http://example.org/b" }),
    .beginRefreshAll 0, .beginRefresh "b",
    .fetchReturns 0 { error := "Request timed out" } 0,
    .fetchReturns 0 { error := "Request timed out" } 0,
    .fetchReturns 0 { error := "Request timed out" } 0]

theorem run_returnSound_within :
    RunOk (nestStep oneEntryEnv) (ReturnSound oneEntryEnv) {} refreshWithin ∧
      (run (nestStep oneEntryEnv) {} refreshWithin).outside = false := by
  refine run_returnSound oneEntryEnv {} refreshWithin
    ⟨trivial, trivial, trivial, trivial, ?_, ?_, ?_, trivial⟩
  · show ∀ waiting ∈ _, Suspended.InPlace _ _ waiting
    decide
  · show ∀ waiting ∈ _, Suspended.InPlace _ _ waiting
    decide
  · show ∀ waiting ∈ _, Suspended.InPlace _ _ waiting
    decide

/-- While the first of two feeds is fetched it is removed: the error of its fetch is recorded on the
second. -/
theorem error_of_removed_feed_moves :
    ¬RunOk (nestStep oneEntryEnv) (ReturnSound oneEntryEnv) {}
      [.call (.upsertFeed "a" { url := "http://example.org/a" }),
        .call (.upsertFeed "b" { url := "http://example.org/b" }),
        .beginRefresh "a", .call (.removeFeed "a"),
        .fetchReturns 0 { error := "Request timed out" } 0] := by
  rintro ⟨-, -, -, -, hlast, -⟩
  have hhome := hlast.home 0 { error := "Request timed out" } 0
    { asked := "a", fit := 0, loop := none } [] rfl rfl
  obtain ⟨feed, hfeed, hid⟩ := hhome.records 0 (by decide)
  obtain rfl := Option.some.inj hfeed
  exact absurd hid (by decide)

end TorrentLink.Rss
