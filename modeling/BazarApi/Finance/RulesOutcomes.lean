import BazarApi.Finance.RulesAnswers

/- What the page of a link tells a socio (`respond` of `finance/finance-rule-links.service.ts`,
   over `finance_rule_link_respond` and `finance_rule_set_settle`). Each of the four outcomes says
   what happened: `vigente` comes with the approval that completes unanimity on the text, and
   only then does what is in force change. -/
open Json

namespace Bazar.Finance.RuleSets
open Rules

/-! Outcomes. -/

section
variable {host : Host} {env : Env} {db : Db}

end

end Bazar.Finance.RuleSets
