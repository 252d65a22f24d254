import SkyCamera.Calibration.Archive
import SkyCamera.Catalogue.Reader
import SkyCamera.LeastSquares.Curve
import SkyCamera.LeastSquares.Weighting
import SkyCamera.Matching.Assignment
import SkyCamera.Sky.SiderealTime
import SkyCamera.Proofs.FitCourse
import SkyCamera.Proofs.FitHistory
import SkyCamera.Proofs.Damping
import SkyCamera.Proofs.ProjectionSlopes
import SkyCamera.Proofs.RotationSlopes
import SkyCamera.Proofs.StarLayout
import SkyCamera.Proofs.Rotations
import SkyCamera.Proofs.StarPixels
import SkyCamera.Proofs.ModelCalls
import SkyCamera.Proofs.ConstrainedFit
import SkyCamera.Proofs.UnitQuaternion
import SkyCamera.Proofs.RealMatrix
import SkyCamera.Proofs.CholeskySolve
import SkyCamera.Proofs.Weights
import SkyCamera.Proofs.AffineFit
import SkyCamera.Proofs.KeptStars
import SkyCamera.Proofs.CalibrationCourse
import SkyCamera.Proofs.CalibrationReport
import SkyCamera.Proofs.KeptCalibration
import SkyCamera.Proofs.CalibrationErrors
import SkyCamera.Proofs.Endings
import SkyCamera.Proofs.SolverCalls
import SkyCamera.Proofs.CovarianceForms
import SkyCamera.Proofs.FloatOrder
import SkyCamera.Proofs.GreedyMatching
import SkyCamera.Proofs.ExactInverse
import SkyCamera.Proofs.FitScale
import SkyCamera.Proofs.CovarianceScale
import SkyCamera.Proofs.ZenithStars
import SkyCamera.Proofs.RecordRestored
import SkyCamera.Proofs.HiddenStars
import SkyCamera.Proofs.ShapedFit
import SkyCamera.Proofs.StoredSolver
import SkyCamera.Proofs.SolverShapes
import SkyCamera.Proofs.LinesAndFields
import SkyCamera.Proofs.CatalogueLines
import SkyCamera.Proofs.MoorePenrose
import SkyCamera.Proofs.QuaternionGauge
import SkyCamera.Proofs.ReorderedFit
import SkyCamera.Proofs.ReorderedStars
import SkyCamera.Proofs.PermutedLists
import SkyCamera.Proofs.PermutedCalibration
import SkyCamera.Proofs.PermutedMatching
import SkyCamera.Proofs.FloatRounding
import SkyCamera.Proofs.FloatValue
import SkyCamera.Proofs.FloatRemainder
import SkyCamera.Proofs.UnmovedFit
import SkyCamera.Proofs.StarPositions
import SkyCamera.Proofs.HourAngle
import SkyCamera.Proofs.Angles
import SkyCamera.Proofs.SphericalCoordinates
import SkyCamera.Proofs.CameraPointing
import SkyCamera.Proofs.DampedStep
import SkyCamera.Proofs.FloatOverflow
import SkyCamera.Proofs.AcceptedCovariance
import SkyCamera.Proofs.BlockCovariance
import SkyCamera.Proofs.StarWeights
import SkyCamera.Proofs.VisibleStars
import SkyCamera.Proofs.BrightestSources
import SkyCamera.Proofs.Undistortion
import SkyCamera.Proofs.DifferenceQuotients
import SkyCamera.Proofs.AffineMinimum
import SkyCamera.Proofs.LandingFit
import SkyCamera.Proofs.Sensitivities
import SkyCamera.Proofs.ProjectionPaths
import SkyCamera.Proofs.IntrinsicSlots
import SkyCamera.Proofs.Correlations
