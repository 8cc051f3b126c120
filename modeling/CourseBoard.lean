import CourseBoard.Http.Api
import CourseBoard.Main
import CourseBoard.Proofs.Service.Latecomers
import CourseBoard.Proofs.Service.Materialization
import CourseBoard.Proofs.Store.Agreement
import CourseBoard.Store.Interference
import CourseBoard.Store.Memory
import CourseBoard.Proofs.Service.Decisions
import CourseBoard.Proofs.Service.Outcomes
import CourseBoard.Proofs.Store.Seen
import CourseBoard.Proofs.Service.Discretion
import CourseBoard.Proofs.Store.Writes
import CourseBoard.Proofs.Service.Atomicity
import CourseBoard.Proofs.Service.AcceptedCalls
import CourseBoard.Proofs.Service.Contention
import CourseBoard.Proofs.Http.Serving
import CourseBoard.Proofs.Http.StoredTexts
import CourseBoard.Proofs.Service.Listings
import CourseBoard.Proofs.Service.Publication
import CourseBoard.Proofs.Json.Objects
import CourseBoard.Proofs.Json.Records
import CourseBoard.Proofs.Settings.Written
import CourseBoard.Proofs.Store.FailedWrites
import CourseBoard.Proofs.Http.StatusEndpoint
import CourseBoard.Proofs.Service.Independence
import CourseBoard.Proofs.Service.Frames
import CourseBoard.Proofs.Service.Faults
import CourseBoard.Proofs.Http.HiddenFailures
import CourseBoard.Proofs.Store.Reopening
import CourseBoard.Proofs.Store.Representation
import CourseBoard.Proofs.Time.StoredStamps
import CourseBoard.Proofs.Settings.Layers
