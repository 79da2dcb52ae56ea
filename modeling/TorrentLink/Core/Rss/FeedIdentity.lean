import TorrentLink.Core.Rss.ServiceRuns

/-!
# The identity of feeds

`upsertFeed` looks for the feed by its id and then by its URL, and replaces the record it finds. An edit
that gives one feed the URL of another leaves two feeds with that URL; a feed with a new id and a known
URL takes the place of the known one, whose items belong to no feed any more. These are the only ways in
which feed operations confuse feeds.
-/

namespace TorrentLink.Rss

open Lib

variable (env : ServiceEnv)

/-- Distinct ids, and distinct URLs among the non-empty ones. -/
structure FeedsDistinct (feeds : List RssFeed) : Prop where
  ids : feeds.Pairwise fun f g => f.id ≠ g.id
  urls : feeds.Pairwise fun f g => f.url = g.url → f.url = ""

def FeedsNamed (feeds : List RssFeed) : Prop := ∀ feed ∈ feeds, feed.id ≠ ""

def FreshId (s : Service) (uuid : String) : Prop := uuid ≠ "" ∧ ∀ feed ∈ s.feeds, feed.id ≠ uuid

instance (s : Service) (uuid : String) : Decidable (FreshId s uuid) :=
  inferInstanceAs (Decidable (_ ∧ _))

/-- The feed operations, with a fresh UUID and with files whose feeds are distinct. -/
def FeedOperation (s : Service) : ServiceOp → Prop
  | .upsertFeed uuid _ => FreshId s uuid
  | .removeFeed _ => True
  | .loadState =>
    FeedsDistinct (loadFeeds env.repository s.files) ∧ FeedsNamed (loadFeeds env.repository s.files)
  | _ => False

def hasFeed (feeds : List RssFeed) (it : RssItem) : Prop := ∃ feed ∈ feeds, feed.id = it.feedId

/-- The feeds are distinct after the step, and an `upsertFeed` orphans no item. -/
structure KeepsIdentity (s : Service) (op : ServiceOp) : Prop where
  distinct : FeedsDistinct (serviceStep env s op).feeds
  noOrphan : ∀ uuid feed, op = .upsertFeed uuid feed →
    ∀ it ∈ s.items, hasFeed s.feeds it → hasFeed (serviceStep env s op).feeds it

/-- A feed with a known id has a URL that no other feed has; the URL of a feed with a new id is that of
no feed with items. -/
def UpsertSafe (s : Service) (feed : RssFeed) : Prop :=
  if ∃ known ∈ s.feeds, known.id = feed.id then
    ∀ other ∈ s.feeds, other.id ≠ feed.id → other.url = feed.url → feed.url = ""
  else
    feed.id = "" ∨ ∀ known ∈ s.feeds, known.url = feed.url → feed.url ≠ "" →
      ∀ it ∈ s.items, it.feedId ≠ known.id

instance (s : Service) (feed : RssFeed) : Decidable (UpsertSafe s feed) :=
  inferInstanceAs (Decidable (if ∃ known ∈ s.feeds, known.id = feed.id then
      ∀ other ∈ s.feeds, other.id ≠ feed.id → other.url = feed.url → feed.url = ""
    else
      feed.id = "" ∨ ∀ known ∈ s.feeds, known.url = feed.url → feed.url ≠ "" →
        ∀ it ∈ s.items, it.feedId ≠ known.id))

def UpsertOk (s : Service) : ServiceOp → Prop
  | .upsertFeed _ feed => UpsertSafe s feed
  | _ => True

/-! ### One record among the others -/

theorem feedsDistinct_middle (before after : List RssFeed) (feed : RssFeed) :
    FeedsDistinct (before ++ feed :: after) ↔
      FeedsDistinct (before ++ after) ∧
        ∀ other ∈ before ++ after, other.id ≠ feed.id ∧ (other.url = feed.url → feed.url = "") := by
  have hids : (before ++ feed :: after).Pairwise (fun f g : RssFeed => f.id ≠ g.id) ↔
      (feed :: (before ++ after)).Pairwise fun f g => f.id ≠ g.id :=
    List.pairwise_middle fun h => Ne.symm h
  have hurls : (before ++ feed :: after).Pairwise (fun f g : RssFeed => f.url = g.url → f.url = "") ↔
      (feed :: (before ++ after)).Pairwise fun f g => f.url = g.url → f.url = "" :=
    List.pairwise_middle fun h heq => heq ▸ h heq.symm
  constructor
  · rintro ⟨h1, h2⟩
    obtain ⟨h1, h1'⟩ := List.pairwise_cons.mp (hids.mp h1)
    obtain ⟨h2, h2'⟩ := List.pairwise_cons.mp (hurls.mp h2)
    exact ⟨⟨h1', h2'⟩, fun other ho => ⟨Ne.symm (h1 other ho), fun heq => h2 other ho heq.symm⟩⟩
  · rintro ⟨⟨h1, h2⟩, hother⟩
    exact ⟨hids.mpr (List.pairwise_cons.mpr ⟨fun other ho => Ne.symm (hother other ho).1, h1⟩),
      hurls.mpr (List.pairwise_cons.mpr
        ⟨fun other ho heq => (hother other ho).2 heq.symm, h2⟩)⟩

theorem feedsDistinct_append (feeds : List RssFeed) (feed : RssFeed) :
    FeedsDistinct (feeds ++ [feed]) ↔
      FeedsDistinct feeds ∧
        ∀ other ∈ feeds, other.id ≠ feed.id ∧ (other.url = feed.url → feed.url = "") := by
  have h := feedsDistinct_middle feeds [] feed
  rw [List.append_nil] at h
  exact h

/-- The search for a feed by its id. -/
theorem findById_eq_none {feeds : List RssFeed} {feed : RssFeed}
    (h : (if feed.id ≠ "" then feedIndex feeds feed.id else none) = none) :
    feed.id = "" ∨ ∀ other ∈ feeds, other.id ≠ feed.id := by
  by_cases hid : feed.id = ""
  · exact .inl hid
  · rw [if_pos hid] at h
    exact .inr fun other ho => of_decide_eq_false (List.findIdx?_eq_none_iff.mp h other ho)

theorem findByUrl_eq_none {feeds : List RssFeed} {feed : RssFeed}
    (h : (if feed.url ≠ "" then feeds.findIdx? fun x => x.url = feed.url else none) = none) :
    feed.url = "" ∨ ∀ other ∈ feeds, other.url ≠ feed.url := by
  by_cases hurl : feed.url = ""
  · exact .inl hurl
  · rw [if_pos hurl] at h
    exact .inr fun other ho => of_decide_eq_false (List.findIdx?_eq_none_iff.mp h other ho)

/-- The three ways of `upsertFeed`: a feed found by its id, one found by its URL, or none. -/
theorem upsertFeed_cases (uuid : String) (s : Service) (feed : RssFeed) :
    (∃ before known after, s.feeds = before ++ known :: after ∧ feed.id ≠ "" ∧
        known.id = feed.id ∧ (upsertFeed uuid s feed).feeds = before ++ feed :: after) ∨
      ((feed.id = "" ∨ ∀ other ∈ s.feeds, other.id ≠ feed.id) ∧
        ((∃ before known after, s.feeds = before ++ known :: after ∧ feed.url ≠ "" ∧
            known.url = feed.url ∧
            (upsertFeed uuid s feed).feeds = before ++ mergeFeed uuid known feed :: after) ∨
          ((feed.url = "" ∨ ∀ other ∈ s.feeds, other.url ≠ feed.url) ∧
            (upsertFeed uuid s feed).feeds =
              s.feeds ++ [{ feed with id := if feed.id = "" then uuid else feed.id }]))) := by
  unfold upsertFeed upsertIndex
  dsimp only
  cases hbyId : if feed.id ≠ "" then feedIndex s.feeds feed.id else none with
  | some i =>
    have hid : feed.id ≠ "" := by
      intro hid
      rw [if_neg (not_not_intro hid)] at hbyId
      cases hbyId
    rw [if_pos hid] at hbyId
    obtain ⟨before, known, after, hsplit, hknown, hmodify⟩ := exists_split_of_findIdx? hbyId
    refine .inl ⟨before, known, after, hsplit, hid, of_decide_eq_true hknown, ?_⟩
    have hmerge : mergeFeed uuid known feed = feed := if_neg hid
    exact (hmodify _).trans (by rw [hmerge])
  | none =>
    refine .inr ⟨findById_eq_none hbyId, ?_⟩
    cases hbyUrl : if feed.url ≠ "" then s.feeds.findIdx? fun x => x.url = feed.url else none with
    | some i =>
      have hurl : feed.url ≠ "" := by
        intro hurl
        rw [if_neg (not_not_intro hurl)] at hbyUrl
        cases hbyUrl
      rw [if_pos hurl] at hbyUrl
      obtain ⟨before, known, after, hsplit, hknown, hmodify⟩ := exists_split_of_findIdx? hbyUrl
      exact .inl ⟨before, known, after, hsplit, hurl, of_decide_eq_true hknown, hmodify _⟩
    | none => exact .inr ⟨findByUrl_eq_none hbyUrl, rfl⟩

/-! ### One step -/

variable {env}

/-- The state of the feeds between the operations. -/
structure FeedsSound (s : Service) : Prop where
  distinct : FeedsDistinct s.feeds
  named : FeedsNamed s.feeds

theorem hasFeed_middle {before after : List RssFeed} {feed : RssFeed} {it : RssItem} :
    hasFeed (before ++ feed :: after) it ↔ feed.id = it.feedId ∨ hasFeed (before ++ after) it := by
  unfold hasFeed
  constructor
  · rintro ⟨other, ho, hid⟩
    rcases List.mem_append.mp ho with ho | ho
    · exact .inr ⟨other, List.mem_append_left _ ho, hid⟩
    · rcases List.mem_cons.mp ho with rfl | ho
      · exact .inl hid
      · exact .inr ⟨other, List.mem_append_right _ ho, hid⟩
  · rintro (hid | ⟨other, ho, hid⟩)
    · exact ⟨feed, List.mem_append_right _ List.mem_cons_self, hid⟩
    · rcases List.mem_append.mp ho with ho | ho
      · exact ⟨other, List.mem_append_left _ ho, hid⟩
      · exact ⟨other, List.mem_append_right _ (List.mem_cons_of_mem _ ho), hid⟩

/-- An edit of a known feed: the new URL must be its own. -/
theorem edit_sound_iff {before after : List RssFeed} {known feed : RssFeed}
    (h : FeedsDistinct (before ++ known :: after)) (hid : known.id = feed.id) :
    FeedsDistinct (before ++ feed :: after) ↔
      ∀ other ∈ before ++ known :: after, other.id ≠ feed.id → other.url = feed.url →
        feed.url = "" := by
  obtain ⟨hrest, hothers⟩ := (feedsDistinct_middle before after known).mp h
  rw [feedsDistinct_middle]
  constructor
  · rintro ⟨-, hurls⟩ other ho hne
    have ho' : other ∈ before ++ after := by
      rcases List.mem_append.mp ho with ho | ho
      · exact List.mem_append_left _ ho
      · rcases List.mem_cons.mp ho with rfl | ho
        · exact absurd hid hne
        · exact List.mem_append_right _ ho
    exact (hurls other ho').2
  · intro hurls
    refine ⟨hrest, fun other ho => ?_⟩
    have hne : other.id ≠ feed.id := hid ▸ (hothers other ho).1
    refine ⟨hne, hurls other ?_ hne⟩
    rcases List.mem_append.mp ho with ho | ho
    · exact List.mem_append_left _ ho
    · exact List.mem_append_right _ (List.mem_cons_of_mem _ ho)

/-- A feed with a new id that takes the place of the one with its URL: that one must have no items. -/
theorem replace_sound_iff {before after : List RssFeed} {known feed : RssFeed} (items : List RssItem)
    (h : FeedsDistinct (before ++ known :: after)) (hurl : feed.url ≠ "")
    (hknown : known.url = feed.url)
    (hnew : ∀ other ∈ before ++ known :: after, other.id ≠ feed.id) :
    (FeedsDistinct (before ++ feed :: after) ∧ ∀ it ∈ items, hasFeed (before ++ known :: after) it →
        hasFeed (before ++ feed :: after) it) ↔
      ∀ other ∈ before ++ known :: after, other.url = feed.url → feed.url ≠ "" →
        ∀ it ∈ items, it.feedId ≠ other.id := by
  obtain ⟨hrest, hothers⟩ := (feedsDistinct_middle before after known).mp h
  have hself : known ∈ before ++ known :: after := List.mem_append_right _ List.mem_cons_self
  have hmem : ∀ other ∈ before ++ after, other ∈ before ++ known :: after := by
    intro other ho
    rcases List.mem_append.mp ho with ho | ho
    · exact List.mem_append_left _ ho
    · exact List.mem_append_right _ (List.mem_cons_of_mem _ ho)
  have hdistinct : FeedsDistinct (before ++ feed :: after) := by
    refine (feedsDistinct_middle before after feed).mpr ⟨hrest, fun other ho => ?_⟩
    refine ⟨hnew other (hmem other ho), fun heq => ?_⟩
    rw [← hknown]
    exact (hothers other ho).2 (heq.trans hknown.symm)
  constructor
  · rintro ⟨-, horphan⟩ other ho hother hne it hit hitem
    -- the only feed with this URL is the one that is replaced
    obtain rfl : other = known := by
      rcases List.mem_append.mp ho with ho' | ho'
      · exact absurd (hknown ▸ (hothers other (List.mem_append_left _ ho')).2 (hother.trans hknown.symm))
          hne
      · rcases List.mem_cons.mp ho' with rfl | ho'
        · rfl
        · exact absurd
            (hknown ▸ (hothers other (List.mem_append_right _ ho')).2 (hother.trans hknown.symm)) hne
    rcases hasFeed_middle.mp (horphan it hit (hasFeed_middle.mpr (.inl hitem.symm))) with hid | hlost
    · exact hnew other hself (hitem ▸ hid.symm)
    · obtain ⟨other', ho', hid⟩ := hlost
      exact (hothers other' ho').1 (hid.trans hitem)
  · intro hitems
    refine ⟨hdistinct, fun it hit hfeed => hasFeed_middle.mpr ?_⟩
    rcases hasFeed_middle.mp hfeed with hid | hfeed
    · exact absurd hid.symm (hitems known hself hknown hurl it hit)
    · exact .inr hfeed

theorem keepsIdentity_upsertFeed_iff {s : Service} (h : FeedsSound s) {uuid : String} {feed : RssFeed}
    (huuid : FreshId s uuid) :
    KeepsIdentity env s (.upsertFeed uuid feed) ↔ UpsertOk s (.upsertFeed uuid feed) := by
  have hkeeps : KeepsIdentity env s (.upsertFeed uuid feed) ↔
      FeedsDistinct (upsertFeed uuid s feed).feeds ∧
        ∀ it ∈ s.items, hasFeed s.feeds it → hasFeed (upsertFeed uuid s feed).feeds it :=
    ⟨fun h => ⟨h.distinct, h.noOrphan uuid feed rfl⟩,
      fun h => ⟨h.1, fun uuid' feed' heq => by cases heq; exact h.2⟩⟩
  obtain ⟨hdistinct, hnamed⟩ := h
  rw [hkeeps]
  rcases upsertFeed_cases uuid s feed with ⟨before, known, after, hsplit, hid, hknown, hafter⟩ |
    ⟨hnoId, hrest⟩
  · rw [hafter]
    have hok : UpsertOk s (.upsertFeed uuid feed) ↔
        ∀ other ∈ s.feeds, other.id ≠ feed.id → other.url = feed.url → feed.url = "" :=
      iff_of_eq (if_pos ⟨known, hsplit ▸ List.mem_append_right _ List.mem_cons_self, hknown⟩)
    rw [hok, hsplit, ← edit_sound_iff (hsplit ▸ hdistinct) hknown]
    refine and_iff_left fun it _ hfeed => ?_
    exact hasFeed_middle.mpr ((hasFeed_middle.mp hfeed).imp_left (hknown ▸ ·))
  · have hnew : ∀ other ∈ s.feeds, other.id ≠ feed.id := by
      rcases hnoId with hid | hnew
      · exact fun other ho => hid ▸ hnamed other ho
      · exact hnew
    have hok : UpsertOk s (.upsertFeed uuid feed) ↔ (feed.id = "" ∨ ∀ known ∈ s.feeds,
        known.url = feed.url → feed.url ≠ "" → ∀ it ∈ s.items, it.feedId ≠ known.id) :=
      iff_of_eq (if_neg fun ⟨known, hmem, heq⟩ => hnew known hmem heq)
    rw [hok]
    rcases hrest with ⟨before, known, after, hsplit, hurl, hknown, hafter⟩ | ⟨hnoUrl, hafter⟩
    · rw [hafter]
      by_cases hid : feed.id = ""
      · -- the record keeps its id and its URL
        have hmerge : (mergeFeed uuid known feed).id = known.id ∧
            (mergeFeed uuid known feed).url = known.url := by
          have hne : known.id ≠ "" :=
            hnamed known (hsplit ▸ List.mem_append_right _ List.mem_cons_self)
          unfold mergeFeed
          rw [if_pos hid]
          exact ⟨if_pos hne, hknown.symm⟩
        have hparts := (feedsDistinct_middle before after known).mp (hsplit ▸ hdistinct)
        refine iff_of_true ⟨(feedsDistinct_middle before after _).mpr ?_, fun it _ hfeed => ?_⟩
          (.inl hid)
        · rw [hmerge.1, hmerge.2]
          exact hparts
        · rw [hsplit, hasFeed_middle] at hfeed
          rw [hasFeed_middle, hmerge.1]
          exact hfeed
      · have hmerge : mergeFeed uuid known feed = feed := if_neg hid
        rw [hmerge, hsplit]
        refine (replace_sound_iff s.items (hsplit ▸ hdistinct) hurl hknown (hsplit ▸ hnew)).trans ?_
        exact ⟨.inr, fun h => h.resolve_left hid⟩
    · rw [hafter]
      refine iff_of_true ⟨(feedsDistinct_append _ _).mpr ⟨hdistinct, fun other ho => ⟨?_, ?_⟩⟩,
        fun it _ ⟨other, ho, heq⟩ => ⟨other, List.mem_append_left _ ho, heq⟩⟩ ?_
      · show other.id ≠ if feed.id = "" then uuid else feed.id
        split
        · exact huuid.2 other ho
        · exact hnew other ho
      · intro heq
        rcases hnoUrl with hurl | hurl
        · exact hurl
        · exact absurd heq (hurl other ho)
      · refine .inr fun known hmem heq hne => ?_
        rcases hnoUrl with hurl | hurl
        · exact absurd hurl hne
        · exact absurd heq (hurl known hmem)

theorem mergeFeed_id_ne_empty {uuid : String} {known : RssFeed} (feed : RssFeed) (huuid : uuid ≠ "") :
    (mergeFeed uuid known feed).id ≠ "" := by
  unfold mergeFeed
  split
  · show (if known.id ≠ "" then known.id else uuid) ≠ ""
    split
    · assumption
    · exact huuid
  · assumption

theorem named_upsertFeed {s : Service} (h : FeedsNamed s.feeds) {uuid : String} (huuid : uuid ≠ "")
    (feed : RssFeed) : FeedsNamed (upsertFeed uuid s feed).feeds := by
  have hmiddle : ∀ (before after : List RssFeed) (known new : RssFeed),
      s.feeds = before ++ known :: after → new.id ≠ "" → FeedsNamed (before ++ new :: after) := by
    intro before after known new hsplit hnew other ho
    rcases List.mem_append.mp ho with ho | ho
    · exact h other (hsplit ▸ List.mem_append_left _ ho)
    · rcases List.mem_cons.mp ho with rfl | ho
      · exact hnew
      · exact h other (hsplit ▸ List.mem_append_right _ (List.mem_cons_of_mem _ ho))
  rcases upsertFeed_cases uuid s feed with ⟨before, known, after, hsplit, hid, -, hafter⟩ |
    ⟨-, ⟨before, known, after, hsplit, -, -, hafter⟩ | ⟨-, hafter⟩⟩
  · exact hafter ▸ hmiddle before after known feed hsplit hid
  · exact hafter ▸ hmiddle before after known _ hsplit (mergeFeed_id_ne_empty feed huuid)
  · rw [hafter]
    intro other ho
    rcases List.mem_append.mp ho with ho | ho
    · exact h other ho
    · obtain rfl := List.mem_singleton.mp ho
      show (if feed.id = "" then uuid else feed.id) ≠ ""
      split
      · exact huuid
      · assumption

theorem feedsSound_removeFeed {s : Service} (h : FeedsSound s) (feedId : String) :
    FeedsSound (removeFeed env s feedId) :=
  ⟨⟨h.distinct.ids.filter _, h.distinct.urls.filter _⟩,
    fun feed hfeed => h.named feed (List.mem_of_mem_filter hfeed)⟩

theorem feedsSound_step (s : Service) (op : ServiceOp) (h : FeedsSound s) (hop : FeedOperation env s op)
    (hkeeps : KeepsIdentity env s op) : FeedsSound (serviceStep env s op) := by
  refine ⟨hkeeps.distinct, ?_⟩
  cases op with
  | upsertFeed uuid feed => exact named_upsertFeed h.named hop.1 feed
  | removeFeed feedId => exact (feedsSound_removeFeed h feedId).named
  | loadState => exact hop.2
  | _ => exact hop.elim

theorem keepsIdentity_iff (s : Service) (op : ServiceOp) (h : FeedsSound s)
    (hop : FeedOperation env s op) : KeepsIdentity env s op ↔ UpsertOk s op := by
  cases op with
  | upsertFeed uuid feed => exact keepsIdentity_upsertFeed_iff h hop
  | removeFeed feedId =>
    exact iff_of_true ⟨(feedsSound_removeFeed h feedId).distinct, fun _ _ heq => by cases heq⟩ trivial
  | loadState => exact iff_of_true ⟨hop.1, fun _ _ heq => by cases heq⟩ trivial
  | _ => exact hop.elim

variable (env)

/-- Every step of a run of feed operations keeps the feeds distinct, and orphans nothing, if and only if
every `upsertFeed` of the run meets the condition. -/
theorem run_keepsIdentity_iff (files : RssFiles) (ops : List ServiceOp)
    (hops : RunOk (serviceStep env) (FeedOperation env) { files := files } ops) :
    RunOk (serviceStep env) (KeepsIdentity env) { files := files } ops ↔
      RunOk (serviceStep env) UpsertOk { files := files } ops :=
  RunOk.congr_kept (I := FeedsSound) feedsSound_step keepsIdentity_iff
    ⟨⟨List.Pairwise.nil, List.Pairwise.nil⟩, fun _ h => by cases h⟩ hops

/-- Two feeds, the first of which is added once more. -/
def addedAgain : List ServiceOp :=
  [.upsertFeed "a" { url := "http://example.org/a" },
    .upsertFeed "b" { url := "http://example.org/b" },
    .upsertFeed "c" { url := "http://example.org/a", title := "A" }]

theorem run_keepsIdentity_again :
    RunOk (serviceStep oneEntryEnv) (KeepsIdentity oneEntryEnv) {} addedAgain := by
  refine (run_keepsIdentity_iff oneEntryEnv {} addedAgain ⟨?_, ?_, ?_, trivial⟩).mpr
    ⟨?_, ?_, ?_, trivial⟩
  · show FreshId _ _
    decide
  · show FreshId _ _
    decide
  · show FreshId _ _
    decide
  · show UpsertSafe _ _
    decide
  · show UpsertSafe _ _
    decide
  · show UpsertSafe _ _
    decide

/-- Two feeds, the second of which is edited to the URL of the first. -/
def editedToKnownUrl : List ServiceOp :=
  [.upsertFeed "a" { url := "http://example.org/a" },
    .upsertFeed "b" { url := "http://example.org/b" },
    .upsertFeed "c" { id := "b", url := "http://example.org/a" }]

theorem run_duplicates_url :
    RunOk (serviceStep oneEntryEnv) (FeedOperation oneEntryEnv) {} editedToKnownUrl ∧
      ¬RunOk (serviceStep oneEntryEnv) (KeepsIdentity oneEntryEnv) {} editedToKnownUrl := by
  refine ⟨⟨?_, ?_, ?_, trivial⟩, ?_⟩
  · show FreshId _ _
    decide
  · show FreshId _ _
    decide
  · show FreshId _ _
    decide
  · rintro ⟨-, -, hlast, -⟩
    obtain ⟨hurl, -⟩ := List.pairwise_cons.mp hlast.distinct.urls
    exact absurd (hurl _ List.mem_cons_self rfl) (by decide)

end TorrentLink.Rss
