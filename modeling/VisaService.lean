import VisaService.Db.Denylist
import VisaService.Db.Keys
import VisaService.Db.Pipeline
import VisaService.Eval.JoinMeaning
import VisaService.Actors.Removal
import VisaService.Trusted.Reuse
import VisaService.Trusted.Renewal
import VisaService.Assembly.Revocations
import VisaService.Assembly.Connects
import VisaService.Assembly.SelfRecord
import VisaService.Policy.Instances
import VisaService.Oidc.Validate
import VisaService.Oidc.Renewals
import VisaService.Oidc.Ceiling
import VisaService.Connection.NodeSessions
import VisaService.Visa.Grant
import VisaService.Visa.Reads
import VisaService.Visa.DenyLog
import VisaService.Assembly.PolicyUpdate
import VisaService.Assembly.Teardown
import VisaService.Vss.Ledger
