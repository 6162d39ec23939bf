import AttributeRules.Config.Json
import AttributeRules.Proofs.Cache.Fetch
import AttributeRules.Proofs.Rule.Rendering
import AttributeRules.Proofs.Stored.Fault
import AttributeRules.Proofs.Stored.Text
import AttributeRules.Session
import AttributeRules.Proofs.Cache.History
import AttributeRules.Proofs.Session.Reference
import AttributeRules.Proofs.Token.Words
import AttributeRules.Proofs.Rule.Flat
import AttributeRules.Proofs.Rule.Agreement
import AttributeRules.Proofs.Rule.Reread
import AttributeRules.Proofs.Rule.Conjoined
import AttributeRules.Proofs.Stored.Normal
import AttributeRules.Proofs.Condition.Made
import AttributeRules.Proofs.Rule.Triples
import AttributeRules.Proofs.Evaluation.Report
import AttributeRules.Proofs.Evaluation.Monotone
import AttributeRules.Proofs.Rule.Combination
import AttributeRules.Proofs.Fields
import AttributeRules.Proofs.Record.Decoding
import AttributeRules.Proofs.Decimal.Spelling
import AttributeRules.Proofs.Literal.Number
import AttributeRules.Proofs.Token.Partition
