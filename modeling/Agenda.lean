import Agenda.Main
import Agenda.Proofs.Rule.Canonical
import Agenda.Proofs.Schedule.Completion
import Agenda.Proofs.Schedule.Drift
import Agenda.Proofs.Schedule.Listing
import Agenda.Proofs.Schedule.Overtaking
import Agenda.Proofs.Schedule.Refinement
import Agenda.Proofs.Schedule.WireFormat
import Agenda.Proofs.Web.Status
import Agenda.Proofs.Calendar.WireCodec
import Agenda.Proofs.Console.WebAgreement
import Agenda.Proofs.Schedule.Preview
import Agenda.Proofs.Console.Sessions
import Agenda.Proofs.Occurrence.Stepping
import Agenda.Proofs.Occurrence.Recurrence
import Agenda.Proofs.Occurrence.Weekdays
import Agenda.Proofs.Schedule.RoundTrip
import Agenda.Proofs.Schedule.Stability
import Agenda.Proofs.Occurrence.Union
import Agenda.Proofs.Schedule.Independence
import Agenda.Proofs.Web.PageSize
import Agenda.Proofs.Task.Layout
import Agenda.Proofs.Console.Columns
import Agenda.Proofs.Calendar.Months
