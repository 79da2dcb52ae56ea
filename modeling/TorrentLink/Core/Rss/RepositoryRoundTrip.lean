import TorrentLink.Core.Rss.Repository

/-!
# What the repository reads back

The four files are written and read by functions that know nothing of each other: `feedToJson` and
`feedFromJson`, and so on. Whatever is saved is read back up to what the files do not keep: times are cut to
seconds, an item comes back as neither queued nor on the waiting list, and the settings come back within
their bounds. Saved once more, the lists give the same documents.
-/

namespace TorrentLink.Rss

/-! ### What is assumed of the libraries -/

/-- The years 0 to 9999, which ISO dates are written for. -/
def InIsoYears (t : QDateTime) : Prop := ∀ ms, t = some ms → -62167219200000 ≤ ms ∧ ms < 253402300800000

/-- A time cut to whole seconds. -/
def inSeconds (t : QDateTime) : QDateTime := t.map fun ms => ms / 1000 * 1000

/-- ISO dates keep the seconds of a time, and no more; an invalid time is an empty text. -/
structure RepositoryText.IsoLaw (q : RepositoryText) : Prop where
  readBack : ∀ t, InIsoYears t → q.fromIsoDate (q.toIsoDate t) = inSeconds t
  sameText : ∀ t, InIsoYears t → q.toIsoDate (inSeconds t) = q.toIsoDate t

/-- The printed object is read back, and it is not empty. -/
structure RepositoryText.ReadsBack (q : RepositoryText) (o : JsonObject) : Prop where
  object : q.fromJson (q.toJsonIndented o) = .object o
  nonempty : q.toJsonIndented o ≠ []

/-- `int` -/
def IsInt (n : Int) : Prop := -2 ^ 31 ≤ n ∧ n < 2 ^ 31

/-! ### The records without what is not kept -/

def RssFeed.kept (f : RssFeed) : RssFeed :=
  { f with
    lastRefreshedAt := inSeconds f.lastRefreshedAt
    lastSuccessRefreshedAt := inSeconds f.lastSuccessRefreshedAt }

def RssItem.kept (it : RssItem) : RssItem :=
  { it with
    publishedAt := inSeconds it.publishedAt
    lastAttemptAt := inSeconds it.lastAttemptAt
    lastSuccessAt := inSeconds it.lastSuccessAt
    queued := false
    rssAutoWaitlisted := false }

/-- The times of a feed can be written. -/
def RssFeed.Writable (f : RssFeed) : Prop :=
  InIsoYears f.lastRefreshedAt ∧ InIsoYears f.lastSuccessRefreshedAt

/-- The times of an item can be written, and its counter is an `int`. -/
def RssItem.Writable (it : RssItem) : Prop :=
  InIsoYears it.publishedAt ∧ InIsoYears it.lastAttemptAt ∧ InIsoYears it.lastSuccessAt ∧
    IsInt it.retryCount

/-- The numbers of the settings are `int`s. -/
def RssSettings.Writable (s : RssSettings) : Prop :=
  IsInt s.refreshIntervalMinutes ∧ IsInt s.maxAutoDownloadsPerRefresh ∧
    IsInt s.maxConcurrentAutoDownloads ∧ IsInt s.maxAutoDownloadBacklog ∧
    IsInt s.historyMaxItems ∧ IsInt s.historyMaxAgeDays

/-! ### Records -/

variable {q : RepositoryText}

theorem toInt_num {n : Int} (h : IsInt n) (default : Int) : (Json.num n).toInt default = n := by
  unfold Json.toInt
  simp only [Rat.num_intCast, Rat.den_intCast]
  exact if_pos ⟨trivial, h.1, h.2⟩

theorem decision_ofInt_toInt (d : AutoDownloadDecision) : .ofInt d.toInt = d := by
  cases d <;> rfl

theorem isInt_decision (d : AutoDownloadDecision) : IsInt d.toInt := by
  unfold IsInt
  cases d <;> decide

theorem feedFromJson_toJson (hq : q.IsoLaw) {f : RssFeed} (h : f.Writable) :
    feedFromJson q (feedToJson q f) = f.kept := by
  simp [feedFromJson, feedToJson, JsonObject.value, List.lookup_cons, Json.toText, Json.toBool,
    RssFeed.kept, hq.readBack _ h.1, hq.readBack _ h.2]

theorem itemFromJson_toJson (hq : q.IsoLaw) {it : RssItem} (h : it.Writable) :
    itemFromJson q (itemToJson q it) = it.kept := by
  obtain ⟨hpublished, hattempt, hsuccess, hretry⟩ := h
  by_cases hpath : it.downloadSavePath = ""
  · simp [itemFromJson, itemToJson, JsonObject.value, List.lookup_cons, Json.toText, Json.toBool,
      RssItem.kept, hq.readBack _ hpublished, hq.readBack _ hattempt, hq.readBack _ hsuccess,
      toInt_num hretry, toInt_num (isInt_decision _), decision_ofInt_toInt, hpath]
  · simp [itemFromJson, itemToJson, JsonObject.value, List.lookup_cons, Json.toText, Json.toBool,
      RssItem.kept, hq.readBack _ hpublished, hq.readBack _ hattempt, hq.readBack _ hsuccess,
      toInt_num hretry, toInt_num (isInt_decision _), decision_ofInt_toInt, hpath]

theorem ruleFromJson_toJson (r : RssRule) : ruleFromJson (ruleToJson r) = r := by
  have htexts : ∀ values : List String, values.map (Json.toText ∘ Json.str) = values := by
    intro values
    induction values with
    | nil => rfl
    | cons v vs ih => rw [List.map_cons, ih]; rfl
  simp [ruleFromJson, ruleToJson, textArray, stringArray, JsonObject.value, List.lookup_cons,
    Json.toText, Json.toBool, Json.toArray, htexts]

theorem settingsFromJson_toJson {s : RssSettings} (h : s.Writable) :
    settingsFromJson (settingsToJson s) = s.clamped := by
  obtain ⟨h1, h2, h3, h4, h5, h6⟩ := h
  simp [settingsFromJson, settingsToJson, JsonObject.value, List.lookup_cons, Json.toText, Json.toBool,
    RssSettings.clamped, toInt_num, h1, h2, h3, h4, h5, h6, trimmed_trimmed]

/-! ### The same documents -/

theorem feedToJson_kept (hq : q.IsoLaw) {f : RssFeed} (h : f.Writable) :
    feedToJson q f.kept = feedToJson q f := by
  simp [feedToJson, RssFeed.kept, hq.sameText _ h.1, hq.sameText _ h.2]

theorem itemToJson_kept (hq : q.IsoLaw) {it : RssItem} (h : it.Writable) :
    itemToJson q it.kept = itemToJson q it := by
  obtain ⟨hpublished, hattempt, hsuccess, -⟩ := h
  unfold itemToJson RssItem.kept
  dsimp only
  rw [hq.sameText _ hpublished, hq.sameText _ hattempt, hq.sameText _ hsuccess]

/-! ### Files -/

/-- The document of a list. -/
def envelopeOf (q : RepositoryText) (values : List JsonObject) : JsonObject :=
  [("version", .num kRssJsonVersion),
    ("checksum", .str (q.sha256Hex (q.toJsonCompact (values.map Json.obj)))),
    ("data", .arr (values.map Json.obj))]

theorem main_saveEnvelope (c : Copies) (values : List JsonObject) :
    (saveEnvelope q c values none).main = .bytes (q.toJsonIndented (envelopeOf q values)) := rfl

/-- A file with a content is read without a look at its backups. -/
theorem readWholeFileWithRecovery_main (path : String) {c : Copies} {data : Bytes}
    (hmain : c.main = .bytes data) (hdata : data ≠ []) :
    (readWholeFileWithRecovery path c).error = none ∧
      (readWholeFileWithRecovery path c).data = data := by
  obtain ⟨b, bs, rfl⟩ := List.exists_cons_of_ne_nil hdata
  have hcontents : c.contents = (b :: bs) :: [c.bak, c.bak2].filterMap FileState.content := by
    unfold Copies.contents
    rw [hmain]
    rfl
  rw [readWholeFileWithRecovery_error, readWholeFileWithRecovery_data, hcontents]
  exact ⟨List.cons_ne_nil _ _, rfl⟩

theorem loadEnvelope_saveEnvelope (path : String) (c : Copies) {values : List JsonObject}
    (h : q.ReadsBack (envelopeOf q values)) :
    loadEnvelope q path (saveEnvelope q c values none) = values := by
  obtain ⟨herror, hdata⟩ := readWholeFileWithRecovery_main path (main_saveEnvelope (q := q) c values)
    h.nonempty
  have hobjects : (values.map Json.obj).filterMap Json.object? = values := by
    rw [List.filterMap_map]
    exact List.filterMap_some
  have hlist : ((envelopeOf q values).value "data").toArray = values.map Json.obj := by
    simp [envelopeOf, JsonObject.value, List.lookup_cons, Json.toArray]
  unfold loadEnvelope
  rw [if_neg (by simp [herror, hdata, h.nonempty])]
  simp only [hdata, h.object, hlist, hobjects]

theorem loadSettings_saveFiles {files : RssFiles} {s : RssSettings}
    (hmain : files.settings.main = .bytes (q.toJsonIndented (settingsToJson s)))
    (h : q.ReadsBack (settingsToJson s)) (hs : s.Writable) : loadSettings q files = s.clamped := by
  obtain ⟨herror, hdata⟩ := readWholeFileWithRecovery_main "rss_settings.json" hmain h.nonempty
  unfold loadSettings
  rw [if_neg (by simp [herror, hdata, h.nonempty])]
  simp only [hdata, h.object]
  exact settingsFromJson_toJson hs

/-! ### The repository -/

/-- What is saved: the records of the four files. -/
structure Saved where
  feeds : List RssFeed := []
  items : List RssItem := []
  rules : List RssRule := []
  settings : RssSettings := {}

/-- Saving without an error. -/
def Saved.save (q : RepositoryText) (files : RssFiles) (r : Saved) : RssFiles :=
  saveFiles q files r.feeds r.items r.rules r.settings {}

def Saved.load (q : RepositoryText) (files : RssFiles) : Saved where
  feeds := loadFeeds q files
  items := loadItems q files
  rules := loadRules q files
  settings := loadSettings q files

/-- What is read back of the records. -/
def Saved.kept (r : Saved) : Saved where
  feeds := r.feeds.map RssFeed.kept
  items := r.items.map RssItem.kept
  rules := r.rules
  settings := r.settings.clamped

/-- The documents that are written. -/
def Saved.documents (q : RepositoryText) (r : Saved) : List JsonObject :=
  [envelopeOf q (r.feeds.map (feedToJson q)), envelopeOf q (r.items.map (itemToJson q)),
    envelopeOf q (r.rules.map ruleToJson), settingsToJson r.settings]

/-- The four main files. -/
def RssFiles.mains (files : RssFiles) : List FileState :=
  [files.feeds.main, files.items.main, files.rules.main, files.settings.main]

/-- The records can be written: times in the years of ISO dates, numbers that are `int`s. -/
structure Saved.Writable (r : Saved) : Prop where
  feeds : ∀ f ∈ r.feeds, f.Writable
  items : ∀ it ∈ r.items, it.Writable
  settings : r.settings.Writable

theorem mains_save (q : RepositoryText) (files : RssFiles) (r : Saved) :
    (r.save q files).mains = (r.documents q).map fun o => .bytes (q.toJsonIndented o) := rfl

theorem load_save (hq : q.IsoLaw) (files : RssFiles) {r : Saved} (hr : r.Writable)
    (hjson : ∀ o ∈ r.documents q, q.ReadsBack o) : Saved.load q (r.save q files) = r.kept := by
  have hfeeds : loadFeeds q (r.save q files) = r.feeds.map RssFeed.kept := by
    show (loadEnvelope q _ (saveEnvelope q _ _ none)).map _ = _
    rw [loadEnvelope_saveEnvelope _ _ (hjson _ (by simp [Saved.documents])), List.map_map]
    exact List.map_congr_left fun f hf => feedFromJson_toJson hq (hr.feeds f hf)
  have hitems : loadItems q (r.save q files) = r.items.map RssItem.kept := by
    show (loadEnvelope q _ (saveEnvelope q _ _ none)).map _ = _
    rw [loadEnvelope_saveEnvelope _ _ (hjson _ (by simp [Saved.documents])), List.map_map]
    exact List.map_congr_left fun it hit => itemFromJson_toJson hq (hr.items it hit)
  have hrules : loadRules q (r.save q files) = r.rules := by
    show (loadEnvelope q _ (saveEnvelope q _ _ none)).map _ = _
    rw [loadEnvelope_saveEnvelope _ _ (hjson _ (by simp [Saved.documents])), List.map_map]
    exact (List.map_congr_left fun rule _ => ruleFromJson_toJson rule).trans (List.map_id _)
  have hsettings : loadSettings q (r.save q files) = r.settings.clamped :=
    loadSettings_saveFiles rfl (hjson _ (by simp [Saved.documents])) hr.settings
  unfold Saved.load Saved.kept
  rw [hfeeds, hitems, hrules, hsettings]

/-- The documents of what is read back: those that were written, but for the settings. -/
theorem documents_kept (hq : q.IsoLaw) {r : Saved} (hr : r.Writable) :
    r.kept.documents q = [envelopeOf q (r.feeds.map (feedToJson q)),
      envelopeOf q (r.items.map (itemToJson q)), envelopeOf q (r.rules.map ruleToJson),
      settingsToJson r.settings.clamped] := by
  have hfeeds : r.kept.feeds.map (feedToJson q) = r.feeds.map (feedToJson q) := by
    rw [Saved.kept, List.map_map]
    exact List.map_congr_left fun f hf => feedToJson_kept hq (hr.feeds f hf)
  have hitems : r.kept.items.map (itemToJson q) = r.items.map (itemToJson q) := by
    rw [Saved.kept, List.map_map]
    exact List.map_congr_left fun it hit => itemToJson_kept hq (hr.items it hit)
  unfold Saved.documents
  rw [hfeeds, hitems]
  rfl

/-- The numbers of the settings are within their bounds. -/
def RssSettings.InBounds (s : RssSettings) : Prop :=
  s.clamped = { s with externalPlayerCommand := trimmed s.externalPlayerCommand }

theorem settingsToJson_clamped {s : RssSettings} (h : s.InBounds) :
    settingsToJson s.clamped = settingsToJson s := by
  rw [h]
  unfold settingsToJson
  rw [trimmed_trimmed]

/-- Everything that can be written is read back: feeds, items and rules but for the seconds' fractions
and the transient flags, the settings clamped and trimmed. Saved again, feeds, items and rules give the
documents they were read from, and the settings that of the clamped settings, which is the same document
if they were within their bounds. -/
theorem repository_roundTrip (hq : q.IsoLaw) (files : RssFiles) {r : Saved} (hr : r.Writable)
    (hjson : ∀ o ∈ r.documents q, q.ReadsBack o) :
    Saved.load q (r.save q files) = r.kept ∧
    ((Saved.load q (r.save q files)).save q (r.save q files)).mains =
      (r.save q files).mains.set 3 (.bytes (q.toJsonIndented (settingsToJson r.settings.clamped))) ∧
    (r.settings.InBounds →
      ((Saved.load q (r.save q files)).save q (r.save q files)).mains = (r.save q files).mains) := by
  have hload := load_save hq files hr hjson
  have hmains : ((Saved.load q (r.save q files)).save q (r.save q files)).mains =
      (r.save q files).mains.set 3
        (.bytes (q.toJsonIndented (settingsToJson r.settings.clamped))) := by
    rw [hload, mains_save, documents_kept hq hr, mains_save]
    rfl
  refine ⟨hload, hmains, fun hbounds => ?_⟩
  rw [hmains, settingsToJson_clamped hbounds, mains_save]
  rfl

/-! ### A library that behaves so, on one record of each kind -/

/-- A number for each whole second but the first of 1970. -/
def secondsCode (s : Int) : Nat := if 0 ≤ s then (2 * s).toNat else (-2 * s - 1).toNat

def codeSeconds (n : Nat) : Int := if n % 2 = 0 then (n : Int) / 2 else -(((n : Int) + 1) / 2)

theorem codeSeconds_secondsCode (s : Int) : codeSeconds (secondsCode s) = s := by
  unfold codeSeconds secondsCode
  split_ifs <;> omega

theorem secondsCode_pos {s : Int} (h : s ≠ 0) : 0 < secondsCode s := by
  unfold secondsCode
  split_ifs <;> omega

def sampleIsoDate : QDateTime → String
  | none => ""
  | some ms =>
    if ms / 1000 = 0 then "1970-01-01T00:00:00Z"
    else String.ofList (List.replicate (secondsCode (ms / 1000)) 'a')

def sampleFromIsoDate (s : String) : QDateTime :=
  if s = "" then none
  else if s = "1970-01-01T00:00:00Z" then some 0
  else some (codeSeconds s.toList.length * 1000)

def sample : Saved where
  feeds := [{ id := "f", url := "u", lastRefreshedAt := some 250 }]
  items := [{ id := "i", feedId := "f", guid := "g", queued := true, downloadSavePath := "/tmp" }]
  rules := [{ id := "r", includeKeywords := ["linux", "iso"] }]
  settings := { refreshIntervalMinutes := 1 }

/-- The sample's item after a download that failed. -/
def failedItem : RssItem where
  id := "i"
  feedId := "f"
  guid := "g"
  downloadSavePath := "/tmp"
  lastAutoDecision := .failed
  lastAutoReasonCode := "settlement_failed"
  lastAutoReasonText := "Request failed or cancelled."
  lastAttemptAt := some 0
  retryCount := 1

/-- Qt on these documents, and on these arrays with their hashes. -/
def sampleText (documents : List JsonObject) (hashes : List (List Json × String)) : RepositoryText where
  fromJson data := ((documents.find? fun o => jsonIndented o = data).map .object).getD .null
  toJsonCompact := jsonCompact
  toJsonIndented := jsonIndented
  sha256Hex data := ((hashes.find? fun e => jsonCompact e.1 = data).map (·.2)).getD ""
  toIsoDate := sampleIsoDate
  fromIsoDate := sampleFromIsoDate

/-- The arrays of the sample's records and of the failed item, with the hashes of their texts. -/
def sampleHashes : List (List Json × String) :=
  [(sample.feeds.map fun f => .obj (feedToJson (sampleText [] []) f),
      "4020558251f8416ae29ed7b46e66988585900a28692e43ed4be0161ba4f689dd"),
    (sample.items.map fun it => .obj (itemToJson (sampleText [] []) it),
      "5c2d5375678a4440b7c0cf1d356470716bd43c666385277eddf924f5728e4063"),
    (sample.rules.map fun r => .obj (ruleToJson r),
      "a795ffacf93d7a4fb3d0037932acc61202ed92aa385c6e7ec6af5eaa46bb84bb"),
    ([.obj (itemToJson (sampleText [] []) failedItem)],
      "3cc602a99e09060af2ab0b508783e322da15607592652ff58ebc527c30a8cbda")]

/-- The documents of the sample, of its settings as they are read back, and of the failed item. -/
def sampleDocuments : List JsonObject :=
  let q := sampleText [] sampleHashes
  sample.documents q ++ [settingsToJson sample.settings.clamped, envelopeOf q [itemToJson q failedItem]]

/-- It reads these documents. -/
def sampleReader : RepositoryText := sampleText sampleDocuments sampleHashes

theorem sampleText_isoLaw (documents : List JsonObject) (hashes : List (List Json × String)) :
    (sampleText documents hashes).IsoLaw where
  readBack t _ := by
    show sampleFromIsoDate (sampleIsoDate t) = inSeconds t
    cases t with
    | none => rfl
    | some ms =>
      unfold sampleIsoDate
      dsimp only
      by_cases hzero : ms / 1000 = 0
      · simp [hzero, sampleFromIsoDate, inSeconds]
      · obtain ⟨n, hn⟩ : ∃ n, secondsCode (ms / 1000) = n + 1 :=
          ⟨secondsCode (ms / 1000) - 1, by have hpos := secondsCode_pos hzero; omega⟩
        have hcode : codeSeconds (n + 1) = ms / 1000 := by rw [← hn, codeSeconds_secondsCode]
        have hempty : String.ofList (List.replicate (n + 1) 'a') ≠ "" := fun h => by
          simpa using congrArg String.toList h
        have hother : String.ofList (List.replicate (n + 1) 'a') ≠ "1970-01-01T00:00:00Z" :=
          fun h => by simpa [List.replicate_succ] using congrArg (fun s => s.toList.head?) h
        rw [if_neg hzero, hn, sampleFromIsoDate, if_neg hempty, if_neg hother]
        simp [inSeconds, hcode]
  sameText t _ := by
    show sampleIsoDate (inSeconds t) = sampleIsoDate t
    cases t with
    | none => rfl
    | some ms =>
      have hcut : ms / 1000 * 1000 / 1000 = ms / 1000 := by omega
      simp [sampleIsoDate, inSeconds, hcut]

theorem sampleReader_isoLaw : sampleReader.IsoLaw := sampleText_isoLaw sampleDocuments sampleHashes

theorem sample_writable : sample.Writable where
  feeds := by simp [sample, RssFeed.Writable, InIsoYears]
  items := by simp [sample, RssItem.Writable, InIsoYears, IsInt]
  settings := by simp [sample, RssSettings.Writable, IsInt, kAutoDownloadMaxPerRefresh,
    kRssDefaultConcurrentAutoDownloads, kRssDefaultAutoDownloadBacklog]

/-- Documents with texts of their own are read back. -/
theorem sampleText_readsBack {documents : List JsonObject} (hashes : List (List Json × String))
    (hdistinct : (documents.map jsonIndented).Nodup) :
    ∀ o ∈ documents, (sampleText documents hashes).ReadsBack o := by
  intro o ho
  refine ⟨?_, jsonIndented_ne_nil o⟩
  have hfind : documents.find? (fun o' => jsonIndented o' = jsonIndented o) = some o := by
    obtain ⟨front, back, rfl⟩ := List.append_of_mem ho
    rw [List.map_append, List.map_cons] at hdistinct
    have hnew := (List.nodup_middle.mp hdistinct).notMem
    rw [List.find?_append, List.find?_eq_none.mpr, Option.none_or, List.find?_cons_of_pos (by simp)]
    intro o' ho'
    simp only [decide_eq_true_eq]
    intro hsame
    exact hnew (List.mem_append_left _ (List.mem_map.mpr ⟨o', ho', hsame⟩))
  show ((documents.find? fun o' => jsonIndented o' = jsonIndented o).map JsonDocument.object).getD _ = _
  rw [hfind]
  rfl

theorem sampleDocuments_readBack : ∀ o ∈ sampleDocuments, sampleReader.ReadsBack o :=
  sampleText_readsBack sampleHashes (by decide +kernel)

theorem sample_readsBack : ∀ o ∈ sample.documents sampleReader, sampleReader.ReadsBack o :=
  fun o ho => sampleDocuments_readBack o (List.mem_append_left _ ho)

theorem sample_load : Saved.load sampleReader (sample.save sampleReader {}) = sample.kept :=
  load_save sampleReader_isoLaw {} sample_writable sample_readsBack

theorem repository_roundTrip_sample :
    Saved.load sampleReader (sample.save sampleReader {}) = sample.kept ∧
      ((Saved.load sampleReader (sample.save sampleReader {})).save sampleReader
        (sample.save sampleReader {})).mains =
          (sample.save sampleReader {}).mains.set 3
            (.bytes (jsonIndented (settingsToJson { refreshIntervalMinutes := 5 }))) :=
  have h := repository_roundTrip sampleReader_isoLaw {} sample_writable sample_readsBack
  ⟨h.1, h.2.1⟩

/-- An interval of one minute is saved as it is and read back as five: saved again, the settings give
another document. -/
theorem settings_document_changes :
    ¬ ∀ (q : RepositoryText) (files : RssFiles) (r : Saved), q.IsoLaw → r.Writable →
      (∀ o ∈ r.documents q, q.ReadsBack o) →
        ((Saved.load q (r.save q files)).save q (r.save q files)).mains = (r.save q files).mains := by
  intro h
  have hsame := h sampleReader {} sample sampleReader_isoLaw sample_writable sample_readsBack
  rw [sample_load, mains_save, mains_save] at hsame
  have hsettings := congrArg (fun mains => mains[3]?) hsame
  revert hsettings
  decide +kernel

end TorrentLink.Rss
