import TorrentLink.Core.Rss.Types

/-!
# The rule engine

`RssRuleEngine`: a rule matches an item of one of its feeds by keywords in the title, plain or regular
expressions. The first enabled rule that matches decides.
-/

namespace TorrentLink.Rss

/-- The two ways a keyword is looked up in a title. -/
structure RuleText where
  /-- `QRegularExpression` without regard to case: the pattern is valid and matches the text. -/
  hasMatch : (pattern text : String) → Bool
  /-- `QString::contains` without regard to case. -/
  containsCI : (text keyword : String) → Bool

variable (q : RuleText)

def keywordMatch (text keyword : String) (useRegex : Bool) : Bool :=
  if useRegex then q.hasMatch keyword text else q.containsCI text keyword

/-- A rule's result for an item, with the reason the user is shown. -/
def ruleResult (rule : RssRule) (isMatch : Bool) (reason : String) : RuleMatchResult where
  ruleId := rule.id
  ruleName := rule.name
  isMatch := isMatch
  reason := reason

def evaluate (rule : RssRule) (item : RssItem) : RuleMatchResult :=
  if rule.feedIds ≠ [] ∧ item.feedId ∉ rule.feedIds then
    ruleResult rule false "订阅源不在规则范围内"
  else
    let included := rule.includeKeywords.find? fun kw => keywordMatch q item.title kw rule.useRegex
    if rule.includeKeywords ≠ [] ∧ included = none then
      ruleResult rule false "未命中任何包含关键词"
    else
      match rule.excludeKeywords.find? fun kw => keywordMatch q item.title kw rule.useRegex with
      | some kw => ruleResult rule false ("命中排除关键词「" ++ kw ++ "」")
      | none =>
        let matchedInclude := included.getD ""
        if matchedInclude = "" then
          ruleResult rule true ("规则「" ++ rule.name ++ "」命中（无包含词限制）")
        else
          ruleResult rule true ("规则「" ++ rule.name ++ "」命中（包含词「" ++ matchedInclude ++ "」）")

/-- `RssRuleEngine::findFirstEnabledMatch` -/
def findFirstEnabledMatch (rules : List RssRule) (item : RssItem) : Option RuleMatchResult :=
  match rules with
  | [] => none
  | rule :: rest =>
    if rule.enabled && (evaluate q rule item).isMatch then some (evaluate q rule item)
    else findFirstEnabledMatch rest item

end TorrentLink.Rss
