import TorrentLink.Core.Rss.Dispatch

/-!
# The settings that a download gets

A download gets the save path, the category and the tags of the first rule that applies to its item. The
service has the rule engine find that rule and then looks for the first rule with its id, which in a list
of loaded rules can be another one. The download gets the right settings exactly if none stands before it
with the same id and other settings (`downloadItem_settings_iff`).
-/

namespace TorrentLink.Rss

variable (q : RuleText) (it : RssItem)

/-! ### Rules that apply -/

/-- A rule that decides about an item, if it is the first one. -/
structure RuleApplies (rule : RssRule) : Prop where
  enabled : rule.enabled = true
  scope : rule.feedIds = [] ∨ it.feedId ∈ rule.feedIds
  included : rule.includeKeywords = [] ∨
    ∃ kw ∈ rule.includeKeywords, keywordMatch q it.title kw rule.useRegex = true
  notExcluded : ∀ kw ∈ rule.excludeKeywords, keywordMatch q it.title kw rule.useRegex = false

/-- The first of the rules that applies, and the rules before it. -/
structure FirstApplies (rules before : List RssRule) (rule : RssRule) : Prop where
  place : ∃ after, rules = before ++ rule :: after
  passed : ∀ x ∈ before, ¬RuleApplies q it x
  applies : RuleApplies q it rule

theorem ruleApplies_iff (rule : RssRule) :
    RuleApplies q it rule ↔ (rule.enabled && (evaluate q rule it).isMatch) = true := by
  have hincluded : (rule.includeKeywords.find? fun kw => keywordMatch q it.title kw rule.useRegex) =
      none ↔ ¬∃ kw ∈ rule.includeKeywords, keywordMatch q it.title kw rule.useRegex = true := by
    rw [List.find?_eq_none]
    simp
  have hexcluded : (rule.excludeKeywords.find? fun kw => keywordMatch q it.title kw rule.useRegex) =
      none ↔ ∀ kw ∈ rule.excludeKeywords, keywordMatch q it.title kw rule.useRegex = false := by
    rw [List.find?_eq_none]
    simp
  have hmatch : (evaluate q rule it).isMatch = true ↔
      (rule.feedIds = [] ∨ it.feedId ∈ rule.feedIds) ∧
        (rule.includeKeywords = [] ∨
          ∃ kw ∈ rule.includeKeywords, keywordMatch q it.title kw rule.useRegex = true) ∧
        ∀ kw ∈ rule.excludeKeywords, keywordMatch q it.title kw rule.useRegex = false := by
    unfold evaluate
    by_cases hscope : rule.feedIds ≠ [] ∧ it.feedId ∉ rule.feedIds
    · rw [if_pos hscope]
      refine iff_of_false Bool.false_ne_true fun h => ?_
      exact h.1.elim hscope.1 hscope.2
    · rw [if_neg hscope]
      dsimp only
      have hin : rule.feedIds = [] ∨ it.feedId ∈ rule.feedIds := by
        by_contra hnot
        exact hscope (not_or.mp hnot)
      rw [and_iff_right hin]
      by_cases hinclude : rule.includeKeywords ≠ [] ∧
          (rule.includeKeywords.find? fun kw => keywordMatch q it.title kw rule.useRegex) = none
      · rw [if_pos hinclude]
        refine iff_of_false Bool.false_ne_true fun h => ?_
        exact h.1.elim hinclude.1 (hincluded.mp hinclude.2)
      · rw [if_neg hinclude]
        have hin' : rule.includeKeywords = [] ∨
            ∃ kw ∈ rule.includeKeywords, keywordMatch q it.title kw rule.useRegex = true := by
          by_contra hnot
          obtain ⟨hne, hnone⟩ := not_or.mp hnot
          exact hinclude ⟨hne, hincluded.mpr hnone⟩
        rw [and_iff_right hin', ← hexcluded]
        cases rule.excludeKeywords.find? fun kw => keywordMatch q it.title kw rule.useRegex with
        | none =>
          refine iff_of_true ?_ rfl
          dsimp only
          split
          · rfl
          · rfl
        | some kw => exact iff_of_false Bool.false_ne_true nofun
  rw [Bool.and_eq_true, hmatch]
  constructor
  · exact fun h => ⟨h.enabled, h.scope, h.included, h.notExcluded⟩
  · exact fun ⟨henabled, hscope, hinclude, hexclude⟩ => ⟨henabled, hscope, hinclude, hexclude⟩

variable {q it}

theorem findFirstEnabledMatch_of_first {rules before : List RssRule} {rule : RssRule}
    (h : FirstApplies q it rules before rule) :
    findFirstEnabledMatch q rules it = some (evaluate q rule it) := by
  obtain ⟨⟨after, rfl⟩, hpassed, happlies⟩ := h
  induction before with
  | nil => rw [List.nil_append, findFirstEnabledMatch, if_pos ((ruleApplies_iff q it rule).mp happlies)]
  | cons x before ih =>
    have hx := hpassed x List.mem_cons_self
    rw [ruleApplies_iff] at hx
    rw [List.cons_append, findFirstEnabledMatch, if_neg hx]
    exact ih fun y hy => hpassed y (List.mem_cons_of_mem x hy)

theorem findFirstEnabledMatch_none {rules : List RssRule} (h : ∀ rule ∈ rules, ¬RuleApplies q it rule) :
    findFirstEnabledMatch q rules it = none := by
  induction rules with
  | nil => rfl
  | cons x rules ih =>
    have hx := h x List.mem_cons_self
    rw [ruleApplies_iff] at hx
    rw [findFirstEnabledMatch, if_neg hx]
    exact ih fun y hy => h y (List.mem_cons_of_mem x hy)

/-! ### The request -/

/-- Save path, category and tags. -/
def RssRule.settings (rule : RssRule) : String × String × String :=
  (rule.savePath, rule.category, rule.tagsCsv)

def AutoDownloadRequest.settings (request : AutoDownloadRequest) : String × String × String :=
  (request.savePath, request.category, request.tagsCsv)

/-- The request has the settings of the first rule that applies, or none. -/
structure AttachesFirst (q : RuleText) (it : RssItem) (rules : List RssRule)
    (request : AutoDownloadRequest) : Prop where
  first : ∀ before rule, FirstApplies q it rules before rule → request.settings = rule.settings
  none : (∀ rule ∈ rules, ¬RuleApplies q it rule) → request.settings = ("", "", "")

/-- The rule that is found by the id of the first one that applies. -/
theorem matchingRule_of_first {env : ServiceEnv} {s : Service} {before : List RssRule} {rule : RssRule}
    (h : FirstApplies env.rule it s.rules before rule) :
    matchingRule env s it = some ((before.find? fun r => r.id = rule.id).getD rule) := by
  unfold matchingRule
  rw [findFirstEnabledMatch_of_first h]
  dsimp only
  rw [evaluate_ruleId]
  obtain ⟨⟨after, hplace⟩, -, -⟩ := h
  rw [hplace, List.find?_append, List.find?_cons_of_pos (by simp)]
  cases before.find? fun r => r.id = rule.id with
  | none => rfl
  | some x => rfl

theorem downloadRequest_settings {env : ServiceEnv} {s : Service} :
    (downloadRequest env s it).settings =
      ((matchingRule env s it).map RssRule.settings).getD ("", "", "") := by
  unfold downloadRequest AutoDownloadRequest.settings
  cases matchingRule env s it with
  | none => rfl
  | some rule => rfl

theorem request_of_downloadItem {env : ServiceEnv} {now : Int} {s : Service} {itemId : String}
    {request : AutoDownloadRequest} (hfind : s.items.find? (fun x => x.id = itemId) = some it)
    (hrequest : (downloadItem env now s itemId).2 = some request) : request = downloadRequest env s it := by
  unfold downloadItem at hrequest
  rw [hfind] at hrequest
  dsimp only at hrequest
  unfold downloadAttempt at hrequest
  split at hrequest
  · cases hrequest
  · split at hrequest
    · cases hrequest
    · split at hrequest
      · cases hrequest
      · exact (Option.some.inj hrequest).symm

/-- A download gets the settings of the first rule that applies exactly if the first rule before it with
its id, if there is one, has the same settings. -/
theorem downloadItem_settings_iff (env : ServiceEnv) (now : Int) (s : Service) (itemId : String)
    (it : RssItem) (request : AutoDownloadRequest)
    (hfind : s.items.find? (fun x => x.id = itemId) = some it)
    (hrequest : (downloadItem env now s itemId).2 = some request) :
    AttachesFirst env.rule it s.rules request ↔
      ∀ before rule, FirstApplies env.rule it s.rules before rule →
        ∀ x, before.find? (fun r => r.id = rule.id) = some x → x.settings = rule.settings := by
  rw [request_of_downloadItem hfind hrequest]
  have hsettings : ∀ {before rule}, FirstApplies env.rule it s.rules before rule →
      (downloadRequest env s it).settings =
        ((before.find? fun r => r.id = rule.id).getD rule).settings := by
    intro before rule hfirst
    rw [downloadRequest_settings, matchingRule_of_first hfirst]
    rfl
  constructor
  · intro hattaches before rule hfirst x hx
    have hsame := (hsettings hfirst).symm.trans (hattaches.first before rule hfirst)
    rwa [hx, Option.getD_some] at hsame
  · intro hsame
    constructor
    case first =>
      intro before rule hfirst
      rw [hsettings hfirst]
      cases hx : before.find? fun r => r.id = rule.id with
      | none => rfl
      | some x => exact hsame before rule hfirst x hx
    case none =>
      intro hnone
      rw [downloadRequest_settings, matchingRule, findFirstEnabledMatch_none hnone]
      rfl

/-- A file with a rule that is off and one that is on, without ids. -/
def twoRulesFile : Bytes :=
  ("[\x7b\"save_path\":\"/off\"\x7d,\x7b\"enabled\":true,\"save_path\":\"/on\"\x7d]").toList.map
    fun c => c.toNat.toUInt8

/-- The libraries on that file. -/
def twoRulesEnv : ServiceEnv :=
  { oneEntryEnv with
    repository :=
      { oneEntryEnv.repository with
        fromJson := fun data =>
          if data = twoRulesFile then
            .array [.obj [("save_path", .str "/off")],
              .obj [("enabled", .bool true), ("save_path", .str "/on")]]
          else .null } }

def twoRulesItem : RssItem := { id := "i", feedId := "f", magnet := "magnet:?i" }

/-- The service that has loaded the rules, with a feed and an item of it. -/
def twoRules : Service :=
  { loadState twoRulesEnv { files := { rules := { main := .bytes twoRulesFile } } } with
    hasDownloadCallback := true
    feeds := [{ id := "f", url := "http://a.example/" }]
    items := [twoRulesItem] }

theorem rules_twoRules :
    twoRules.rules = [{ savePath := "/off" }, { enabled := true, savePath := "/on" }] := by
  decide +kernel

theorem firstApplies_twoRules :
    FirstApplies twoRulesEnv.rule twoRulesItem twoRules.rules [{ savePath := "/off" }]
      { enabled := true, savePath := "/on" } where
  place := ⟨[], rules_twoRules⟩
  passed x hx h := by
    rw [List.mem_singleton.mp hx] at h
    exact absurd h.enabled (by decide)
  applies := ⟨rfl, .inl rfl, .inl rfl, nofun⟩

theorem downloadItem_settings_iff_twoRules :
    AttachesFirst twoRulesEnv.rule twoRulesItem twoRules.rules
        (downloadRequest twoRulesEnv twoRules twoRulesItem) ↔
      ∀ before rule, FirstApplies twoRulesEnv.rule twoRulesItem twoRules.rules before rule →
        ∀ x, before.find? (fun r => r.id = rule.id) = some x → x.settings = rule.settings :=
  downloadItem_settings_iff twoRulesEnv 0 twoRules "i" twoRulesItem _ (by decide +kernel) rfl

/-- The download gets the save path of the rule that is off. -/
theorem download_into_other_path :
    FirstApplies twoRulesEnv.rule twoRulesItem twoRules.rules [{ savePath := "/off" }]
        { enabled := true, savePath := "/on" } ∧
      (downloadItem twoRulesEnv 0 twoRules "i").2.map (·.savePath) = some "/off" ∧
      ¬AttachesFirst twoRulesEnv.rule twoRulesItem twoRules.rules
        (downloadRequest twoRulesEnv twoRules twoRulesItem) := by
  refine ⟨firstApplies_twoRules, by decide +kernel, fun hattaches => ?_⟩
  have hsettings := hattaches.first _ _ firstApplies_twoRules
  revert hsettings
  decide +kernel

end TorrentLink.Rss
